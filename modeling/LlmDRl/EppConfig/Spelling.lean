import LlmDRl.EppConfig.Merge

/-!
# Spelling out a config tree

A naming for trees whose keys and scalars are strings.  A scalar is its own
text; the text of a container can be read back, so two containers of one text
are equal.
-/

namespace LlmDRl.EppConfig

/-- A text that ends where its quotation does. -/
def quoted (text : List Char) : List Char :=
  match text with
  | [] => ['"']
  | letter :: rest => '\\' :: letter :: quoted rest

mutual

/-- A spelling of trees of strings from which they can be read back. -/
def spell : Tree String String → List Char
  | .scalar value => 's' :: quoted value.toList
  | .map entries => 'm' :: spellEntries entries
  | .seq items => 'l' :: spellItems items

def spellEntries : List (String × Tree String String) → List Char
  | [] => ['}']
  | (key, value) :: rest =>
      ',' :: (quoted key.toList ++ (spell value ++ spellEntries rest))

def spellItems : List (Tree String String) → List Char
  | [] => [']']
  | item :: rest => ',' :: (spell item ++ spellItems rest)

end

theorem quoted_append_inj
    {left right leftRest rightRest : List Char}
    (same : quoted left ++ leftRest = quoted right ++ rightRest) :
    left = right ∧ leftRest = rightRest := by
  induction left generalizing right with
  | nil =>
      cases right with
      | nil => simpa [quoted] using same
      | cons _ _ => simp [quoted] at same
  | cons letter rest inductionHypothesis =>
      cases right with
      | nil => simp [quoted] at same
      | cons other others =>
          simp only [quoted, List.cons_append, List.cons.injEq, true_and]
            at same
          obtain ⟨rfl, restSame⟩ := same
          obtain ⟨rfl, rfl⟩ := inductionHypothesis restSame
          exact ⟨rfl, rfl⟩

mutual

theorem spell_append_inj :
    ∀ (left right : Tree String String) (leftRest rightRest : List Char),
      spell left ++ leftRest = spell right ++ rightRest →
        left = right ∧ leftRest = rightRest
  | .scalar left, .scalar right, leftRest, rightRest, same => by
      simp only [spell, List.cons_append, List.cons.injEq, true_and] at same
      obtain ⟨equal, restEqual⟩ := quoted_append_inj same
      exact ⟨congrArg Tree.scalar (String.toList_inj.mp equal), restEqual⟩
  | .map left, .map right, leftRest, rightRest, same => by
      simp only [spell, List.cons_append, List.cons.injEq, true_and] at same
      obtain ⟨rfl, restEqual⟩ :=
        spellEntries_append_inj left right leftRest rightRest same
      exact ⟨rfl, restEqual⟩
  | .seq left, .seq right, leftRest, rightRest, same => by
      simp only [spell, List.cons_append, List.cons.injEq, true_and] at same
      obtain ⟨rfl, restEqual⟩ :=
        spellItems_append_inj left right leftRest rightRest same
      exact ⟨rfl, restEqual⟩
  | .scalar _, .map _, _, _, same => by simp [spell] at same
  | .scalar _, .seq _, _, _, same => by simp [spell] at same
  | .map _, .scalar _, _, _, same => by simp [spell] at same
  | .map _, .seq _, _, _, same => by simp [spell] at same
  | .seq _, .scalar _, _, _, same => by simp [spell] at same
  | .seq _, .map _, _, _, same => by simp [spell] at same

theorem spellEntries_append_inj :
    ∀ (left right : List (String × Tree String String))
      (leftRest rightRest : List Char),
      spellEntries left ++ leftRest = spellEntries right ++ rightRest →
        left = right ∧ leftRest = rightRest
  | [], [], leftRest, rightRest, same => by
      simpa [spellEntries] using same
  | [], _ :: _, _, _, same => by simp [spellEntries] at same
  | _ :: _, [], _, _, same => by simp [spellEntries] at same
  | (key, value) :: left, (other, laid) :: right, leftRest, rightRest,
      same => by
      simp only [spellEntries, List.cons_append, List.append_assoc,
        List.cons.injEq, true_and] at same
      obtain ⟨keyEqual, valueSame⟩ := quoted_append_inj same
      obtain ⟨rfl, entriesSame⟩ := spell_append_inj value laid _ _ valueSame
      obtain ⟨rfl, restEqual⟩ :=
        spellEntries_append_inj left right leftRest rightRest entriesSame
      cases String.toList_inj.mp keyEqual
      exact ⟨rfl, restEqual⟩

theorem spellItems_append_inj :
    ∀ (left right : List (Tree String String))
      (leftRest rightRest : List Char),
      spellItems left ++ leftRest = spellItems right ++ rightRest →
        left = right ∧ leftRest = rightRest
  | [], [], leftRest, rightRest, same => by simpa [spellItems] using same
  | [], _ :: _, _, _, same => by simp [spellItems] at same
  | _ :: _, [], _, _, same => by simp [spellItems] at same
  | item :: left, other :: right, leftRest, rightRest, same => by
      simp only [spellItems, List.cons_append, List.append_assoc,
        List.cons.injEq, true_and] at same
      obtain ⟨rfl, itemsSame⟩ := spell_append_inj item other _ _ same
      obtain ⟨rfl, restEqual⟩ :=
        spellItems_append_inj left right leftRest rightRest itemsSame
      exact ⟨rfl, restEqual⟩

end

/-- Keys and scalars that are strings, which are their own text. -/
def plain : Naming String String where
  text key := key
  str
    | .scalar value => value
    | container => String.ofList (spell container)
  spelled left right leftContainer rightContainer same := by
    have texts : spell left = spell right := by
      cases left with
      | scalar _ => exact leftContainer.elim
      | map _ =>
          cases right with
          | scalar _ => exact rightContainer.elim
          | map _ => exact String.ofList_injective same
          | seq _ => exact String.ofList_injective same
      | seq _ =>
          cases right with
          | scalar _ => exact rightContainer.elim
          | map _ => exact String.ofList_injective same
          | seq _ => exact String.ofList_injective same
    exact (spell_append_inj left right [] []
      (congrArg (fun text => text ++ []) texts)).1

end LlmDRl.EppConfig
