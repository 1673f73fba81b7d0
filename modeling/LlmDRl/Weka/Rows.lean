import LlmDRl.Weka.Selection
import Mathlib.Data.List.TakeWhile

/-!
# Rows for every selected conversation

A selected session gets a row exactly when its linearisation has a turn.  A
session that was selected with a cap has a call before the cap stops it; one
that was selected without a cap need not have a call at all, and a negative
truncation can take every turn of either.
-/

namespace LlmDRl.Weka

open LlmDRl.Library

/-! ## Reading the file -/

theorem le_of_mem_iterSessions
    {start lineno : Nat} {lines : List (Option Session)} {sess : Session}
    (member : (lineno, sess) ∈ iterSessions start lines) :
    start ≤ lineno := by
  induction lines generalizing start with
  | nil =>
      cases member
  | cons line rest inductionHypothesis =>
      cases line with
      | none =>
          have later := inductionHypothesis member
          omega
      | some head =>
          rw [iterSessions] at member
          rcases List.mem_cons.mp member with here | later
          · cases here
            exact le_refl _
          · have beyond := inductionHypothesis later
            omega

theorem nodup_iterSessions
    (start : Nat) (lines : List (Option Session)) :
    ((iterSessions start lines).map Prod.fst).Nodup := by
  induction lines generalizing start with
  | nil =>
      exact List.nodup_nil
  | cons line rest inductionHypothesis =>
      cases line with
      | none =>
          exact inductionHypothesis (start + 1)
      | some sess =>
          rw [iterSessions, List.map_cons, List.nodup_cons]
          refine ⟨?_, inductionHypothesis (start + 1)⟩
          intro repeated
          obtain ⟨⟨lineno, other⟩, member, same⟩ := List.mem_map.mp repeated
          have beyond := le_of_mem_iterSessions member
          dsimp only at same
          omega

/-- The early stop loses nothing: as many keys as wanted lines are all of
them. -/
theorem mem_keys_of_full
    {want : Finset Nat} {byLine : OrderedDict Nat Session}
    (within : ∀ key ∈ byLine.keys, key ∈ want)
    (full : byLine.keys.length = want.card) {lineno : Nat}
    (wanted : lineno ∈ want) : lineno ∈ byLine.keys := by
  have subset : byLine.keys.toFinset ⊆ want := by
    intro key member
    exact within key (List.mem_toFinset.mp member)
  have card : byLine.keys.toFinset.card = byLine.keys.length :=
    List.toFinset_card_of_nodup byLine.nodup
  have same : byLine.keys.toFinset = want :=
    Finset.eq_of_subset_of_card_le subset (by omega)
  rw [← same] at wanted
  exact List.mem_toFinset.mp wanted

theorem get?_collectWanted
    {want : Finset Nat} {byLine : OrderedDict Nat Session}
    {items : List (Nat × Session)} (nodup : (items.map Prod.fst).Nodup)
    (within : ∀ key ∈ byLine.keys, key ∈ want)
    (apart : ∀ key ∈ byLine.keys, key ∉ items.map Prod.fst)
    {lineno : Nat} {sess : Session} (wanted : lineno ∈ want)
    (present : byLine.get? lineno = some sess ∨ (lineno, sess) ∈ items) :
    (collectWanted want byLine items).get? lineno = some sess := by
  induction items generalizing byLine with
  | nil =>
      rcases present with kept | absent
      · exact kept
      · cases absent
  | cons item rest inductionHypothesis =>
      obtain ⟨head, headSess⟩ := item
      rw [List.map_cons, List.nodup_cons] at nodup
      have restApart : ∀ key ∈ byLine.keys, key ∉ rest.map Prod.fst := by
        intro key member inRest
        exact apart key member (List.mem_cons_of_mem _ inRest)
      rw [collectWanted]
      by_cases headWanted : head ∈ want
      · rw [if_pos headWanted]
        have fresh : head ∉ byLine.keys := by
          intro old
          exact apart head old (List.mem_cons_self ..)
        have keysNow : ∀ key, key ∈ (byLine.insert head headSess).keys →
            key = head ∨ key ∈ byLine.keys := by
          intro key member
          exact (byLine.mem_keys_insert_iff head headSess key).mp member
        have withinNow : ∀ key ∈ (byLine.insert head headSess).keys,
            key ∈ want := by
          intro key member
          rcases keysNow key member with rfl | old
          · exact headWanted
          · exact within key old
        have apartNow : ∀ key ∈ (byLine.insert head headSess).keys,
            key ∉ rest.map Prod.fst := by
          intro key member
          rcases keysNow key member with rfl | old
          · exact nodup.1
          · exact restApart key old
        have presentNow :
            (byLine.insert head headSess).get? lineno = some sess ∨
              (lineno, sess) ∈ rest := by
          rcases present with kept | listed
          · left
            have different : lineno ≠ head := by
              rintro rfl
              exact fresh (byLine.mem_keys_of_get? kept)
            rw [byLine.get?_insert_of_ne _ different]
            exact kept
          · rcases List.mem_cons.mp listed with here | later
            · cases here
              exact .inl (byLine.get?_insert_self lineno sess)
            · exact .inr later
        dsimp only
        split
        · next full =>
            -- the keys are all the wanted lines, so none is in the rest
            rcases presentNow with kept | later
            · exact kept
            · have key := mem_keys_of_full withinNow full wanted
              exact absurd (List.mem_map.mpr ⟨_, later, rfl⟩)
                (apartNow lineno key)
        · exact inductionHypothesis nodup.2 withinNow apartNow presentNow
      · rw [if_neg headWanted]
        refine inductionHypothesis nodup.2 within restApart ?_
        rcases present with kept | listed
        · exact .inl kept
        · rcases List.mem_cons.mp listed with here | later
          · cases here
            exact absurd wanted headWanted
          · exact .inr later

/-! ## Turns that are left -/

theorem length_linearizeCalls
    (gapCap : Option ℚ) (capIn capOut : Int) (prevEnd : Option ℚ)
    (calls : List Call) :
    (linearizeCalls gapCap capIn capOut prevEnd calls).length =
      (calls.takeWhile fun call =>
        capIn = 0 ∨ max 1 call.inTok ≤ capIn).length := by
  induction calls generalizing prevEnd with
  | nil =>
      rfl
  | cons call rest inductionHypothesis =>
      rw [linearizeCalls]
      by_cases within : capIn = 0 ∨ max 1 call.inTok ≤ capIn
      · have short : ¬ (capIn ≠ 0 ∧ capIn < max 1 call.inTok) := by
          omega
        rw [if_neg short, List.takeWhile_cons_of_pos (by simpa using within),
          List.length_cons, List.length_cons, inductionHypothesis]
      · have long : capIn ≠ 0 ∧ capIn < max 1 call.inTok := by
          omega
        rw [if_pos long, List.takeWhile_cons_of_neg (by simpa using within)]
        rfl

theorem linearize_ne_nil_iff
    (sess : Session) (includeSubagents : Bool) (gapCap : Option ℚ)
    (capIn capOut maxTurnsPerConv : Int) :
    linearize sess includeSubagents gapCap capIn capOut maxTurnsPerConv ≠
        [] ↔
      leadingCalls sess includeSubagents capIn ≠ [] ∧
        (maxTurnsPerConv < 0 →
          -maxTurnsPerConv <
            (leadingCalls sess includeSubagents capIn).length) := by
  have sameLength :=
    length_linearizeCalls gapCap capIn capOut none
      (collectCalls sess includeSubagents)
  change _ = (leadingCalls sess includeSubagents capIn).length at sameLength
  unfold linearize sliceTo
  dsimp only
  rw [← List.length_pos_iff, ← List.length_pos_iff, ← sameLength]
  generalize linearizeCalls gapCap capIn capOut none _ = turns
  split
  · split
    · rw [List.length_take]
      omega
    · rw [List.length_take]
      omega
  · omega

theorem leadingCalls_of_no_cap (sess : Session) (includeSubagents : Bool) :
    leadingCalls sess includeSubagents 0 =
      collectCalls sess includeSubagents :=
  List.takeWhile_eq_self_iff.mpr fun _ _ => by simp

theorem calls_ne_nil_iff (includeSubagents : Bool) (request : Request) :
    request.calls includeSubagents ≠ [] ↔
      ¬ request.IsSubagent ∨
        (includeSubagents = true ∧ request.requests.getD [] ≠ []) := by
  unfold Request.calls
  by_cases subagent : request.IsSubagent
  · cases includeSubagents with
    | false =>
        simp [subagent]
    | true =>
        simp [subagent]
  · simp [subagent]

theorem collectCalls_ne_nil_iff
    (sess : Session) (includeSubagents : Bool) :
    collectCalls sess includeSubagents ≠ [] ↔
      sess.HasCall includeSubagents := by
  unfold collectCalls Session.HasCall
  rw [← List.length_pos_iff, List.length_insertionSort,
    List.length_pos_iff, Ne, List.flatMap_eq_nil_iff]
  simp only [not_forall, exists_prop, ← Ne.eq_def]
  constructor
  · rintro ⟨request, member, calls⟩
    exact ⟨request, member,
      (calls_ne_nil_iff includeSubagents request).mp calls⟩
  · rintro ⟨request, member, calls⟩
    exact ⟨request, member,
      (calls_ne_nil_iff includeSubagents request).mpr calls⟩

/-- A session of the pool keeps a turn under exactly this condition. -/
theorem Options.Eligible.linearize_ne_nil_iff
    {opts : Options} {sess : Session} (inPool : opts.Eligible sess)
    (maxTurnsPerConv : Int) :
    linearize sess opts.includeSubagents opts.gapCap opts.capIn opts.capOut
        maxTurnsPerConv ≠ [] ↔
      opts.KeepsTurns maxTurnsPerConv sess := by
  rw [Weka.linearize_ne_nil_iff]
  refine and_congr_left' ?_
  by_cases capped : opts.capIn ≠ 0 ∨ opts.capOut ≠ 0
  · -- the selection has linearised the session under the same caps
    have selected : linearize sess opts.includeSubagents opts.gapCap
        opts.capIn opts.capOut opts.maxTurns ≠ [] := by
      unfold Options.Eligible at inPool
      rwa [if_pos capped] at inPool
    have leading := ((Weka.linearize_ne_nil_iff sess opts.includeSubagents
      opts.gapCap opts.capIn opts.capOut opts.maxTurns).mp selected).1
    refine iff_of_true leading ?_
    intro noIn noOut
    rcases capped with some | some
    · exact absurd noIn some
    · exact absurd noOut some
  · obtain ⟨noIn, noOut⟩ := not_or.mp capped
    rw [ne_eq, not_not] at noIn noOut
    rw [noIn, leadingCalls_of_no_cap, collectCalls_ne_nil_iff]
    exact ⟨fun has _ _ => has, fun has => has rfl noOut⟩

/-! ## Rows -/

/-- Rows that are named after their lines are complete exactly when no line
is without one. -/
theorem complete_iff_isSome
    {make : Nat × Nat → Option Row}
    (named : ∀ item row,
      make item = some row → row.convId = toString item.1)
    (indices : List Nat) :
    ((indices.zipIdx.filterMap make).length = indices.length ∧
        (indices.zipIdx.filterMap make).map Row.convId =
          indices.map toString) ↔
      ∀ item ∈ indices.zipIdx, (make item).isSome := by
  have byLength :=
    List.filterMap_length_eq_length (f := make) (l := indices.zipIdx)
  rw [List.length_zipIdx] at byLength
  rw [byLength]
  refine and_iff_left_of_imp ?_
  intro made
  have lines : indices.zipIdx.map Prod.fst = indices :=
    List.zipIdx_map_fst 0 indices
  rw [List.map_filterMap]
  calc
    indices.zipIdx.filterMap (fun item => (make item).map Row.convId) =
        indices.zipIdx.filterMap (fun item => some (toString item.1)) := by
      apply List.filterMap_congr
      intro item member
      obtain ⟨row, rowEq⟩ := Option.isSome_iff_exists.mp (made item member)
      rw [rowEq, Option.map_some, named item row rowEq]
    _ = indices.zipIdx.map (fun item => toString item.1) := by
      rw [List.filterMap_eq_map']
    _ = (indices.zipIdx.map Prod.fst).map toString := by
      rw [List.map_map]
      rfl
    _ = indices.map toString := by
      rw [lines]

theorem convId_of_rowOf
    {byLine : OrderedDict Nat Session} {includeSubagents : Bool}
    {gapCap : Option ℚ}
    {maxTotalTokens capIn capOut maxTurnsPerConv : Int}
    {index lineno : Nat} {row : Row}
    (made : rowOf byLine includeSubagents gapCap maxTotalTokens capIn capOut
      maxTurnsPerConv index lineno = some row) :
    row.convId = toString lineno := by
  unfold rowOf at made
  cases found : byLine.get? lineno with
  | none =>
      simp only [found] at made
      cases made
  | some sess =>
      simp only [found] at made
      split at made
      · cases made
      · split at made
        · cases made
        · cases made
          rfl

/-- Without a limit on the total, only a conversation without turns has no
row. -/
theorem isSome_rowOf_iff
    {byLine : OrderedDict Nat Session} {lineno : Nat} {sess : Session}
    (found : byLine.get? lineno = some sess) (includeSubagents : Bool)
    (gapCap : Option ℚ) (capIn capOut maxTurnsPerConv : Int)
    (index : Nat) :
    (rowOf byLine includeSubagents gapCap 0 capIn capOut maxTurnsPerConv
        index lineno).isSome ↔
      linearize sess includeSubagents gapCap capIn capOut maxTurnsPerConv ≠
        [] := by
  unfold rowOf
  simp only [found]
  split
  · next empty =>
      simp [empty]
  · next some =>
      simp [some]

/-- A line of the pool carries a session that is eligible. -/
theorem exists_session_of_mem_eligible
    {lines : List (Option Session)} {opts : Options} {lineno : Nat}
    (member : lineno ∈ eligible lines opts) :
    ∃ sess, (lineno, sess) ∈ iterSessions 0 lines ∧ opts.Eligible sess := by
  obtain ⟨⟨found, sess⟩, kept, same⟩ := List.mem_map.mp member
  obtain ⟨listed, inPool⟩ := List.mem_filter.mp kept
  cases same
  exact ⟨sess, listed, of_decide_eq_true inPool⟩

/-- A line has one session. -/
theorem session_unique
    {lines : List (Option Session)} {lineno : Nat} {sess other : Session}
    (first : (lineno, sess) ∈ iterSessions 0 lines)
    (second : (lineno, other) ∈ iterSessions 0 lines) : sess = other := by
  have injective := List.inj_on_of_nodup_map (nodup_iterSessions 0 lines)
  exact congrArg Prod.snd (injective first second rfl)

/-- The rows of lines of the pool are complete exactly when every one of them
keeps a turn. -/
theorem buildRows_complete_iff
    {lines : List (Option Session)} {opts : Options} {indices : List Nat}
    (inPool : ∀ lineno ∈ indices, lineno ∈ eligible lines opts)
    (maxTurnsPerConv : Int) :
    let rows := buildRows lines indices opts.includeSubagents opts.gapCap 0
      opts.capIn opts.capOut maxTurnsPerConv
    (rows.length = indices.length ∧
        rows.map Row.convId = indices.map toString) ↔
      ∀ lineno ∈ indices, ∀ sess,
        (lineno, sess) ∈ iterSessions 0 lines →
          opts.KeepsTurns maxTurnsPerConv sess := by
  intro rows
  have named : ∀ item row,
      rowOf (collectWanted indices.toFinset .empty (iterSessions 0 lines))
        opts.includeSubagents opts.gapCap 0 opts.capIn opts.capOut
        maxTurnsPerConv (Prod.snd item) (Prod.fst item) = some row →
          row.convId = toString item.1 := by
    intro item row made
    exact convId_of_rowOf made
  refine (complete_iff_isSome named indices).trans ?_
  have keeps : ∀ lineno ∈ indices, ∀ index,
      (rowOf (collectWanted indices.toFinset .empty (iterSessions 0 lines))
        opts.includeSubagents opts.gapCap 0 opts.capIn opts.capOut
        maxTurnsPerConv index lineno).isSome ↔
      ∀ sess, (lineno, sess) ∈ iterSessions 0 lines →
        opts.KeepsTurns maxTurnsPerConv sess := by
    intro lineno member index
    obtain ⟨sess, listed, eligible⟩ :=
      exists_session_of_mem_eligible (inPool lineno member)
    have noKey : ∀ key, key ∉ (.empty : OrderedDict Nat Session).keys := by
      intro key absent
      cases absent
    have found := get?_collectWanted (nodup_iterSessions 0 lines)
      (fun key absent => absurd absent (noKey key))
      (fun key absent => absurd absent (noKey key))
      (List.mem_toFinset.mpr member) (.inr listed)
    rw [isSome_rowOf_iff found, eligible.linearize_ne_nil_iff]
    constructor
    · intro kept other otherListed
      rw [← session_unique listed otherListed]
      exact kept
    · intro kept
      exact kept sess listed
  constructor
  · intro made lineno member
    rw [← List.zipIdx_map_fst 0 indices] at member
    obtain ⟨⟨_, index⟩, listed, rfl⟩ := List.mem_map.mp member
    have inIndices := List.fst_mem_of_mem_zipIdx listed
    exact (keeps _ inIndices index).mp (made _ listed)
  · rintro kept ⟨lineno, index⟩ member
    have inIndices : lineno ∈ indices := List.fst_mem_of_mem_zipIdx member
    exact (keeps lineno inIndices index).mpr (kept lineno inIndices)

/-- The selection has exactly one row per selected line, in its order,
whenever it returns: this holds exactly when the number asked for is not
negative and every line taken from the shuffled pool keeps a turn. -/
theorem rows_match_selection_iff
    (shuffle : List Nat → List Nat)
    (permutes : ∀ items, (shuffle items).Perm items)
    (lines : List (Option Session)) (opts : Options)
    (maxTurnsPerConv : Int) :
    (∀ indices, selectIndices shuffle lines opts none = .ok indices →
      let rows := buildRows lines indices opts.includeSubagents opts.gapCap 0
        opts.capIn opts.capOut maxTurnsPerConv
      (rows.length : Int) = opts.n ∧
        rows.map Row.convId = indices.map toString) ↔
    (opts.n ≤ (shuffle (eligible lines opts)).length →
      0 ≤ opts.n ∧
        ∀ lineno ∈ (shuffle (eligible lines opts)).take opts.n.toNat,
          ∀ sess, (lineno, sess) ∈ iterSessions 0 lines →
            opts.KeepsTurns maxTurnsPerConv sess) := by
  have inPool : ∀ lineno ∈ shuffle (eligible lines opts),
      lineno ∈ eligible lines opts := by
    intro lineno member
    exact (permutes _).mem_iff.mp member
  unfold selectIndices
  dsimp only
  generalize shuffle (eligible lines opts) = pool at inPool ⊢
  by_cases enough : opts.n ≤ pool.length
  · rw [if_neg (by omega)]
    simp only [enough, true_implies, Except.ok.injEq, forall_eq']
    by_cases nonneg : 0 ≤ opts.n
    · have taken : sliceTo opts.n pool = pool.take opts.n.toNat :=
        if_pos nonneg
      have size : ((pool.take opts.n.toNat).length : Int) = opts.n := by
        rw [List.length_take]
        omega
      have takenInPool : ∀ lineno ∈ pool.take opts.n.toNat,
          lineno ∈ eligible lines opts := by
        intro lineno member
        exact inPool lineno (List.mem_of_mem_take member)
      have complete := buildRows_complete_iff takenInPool maxTurnsPerConv
      rw [taken, and_iff_right nonneg]
      refine (and_congr_left' ?_).trans complete
      omega
    · have few : ∀ rows : List Row, ¬ (rows.length : Int) = opts.n := by
        intro rows
        omega
      simp only [few, nonneg, false_and]
  · rw [if_pos (by omega)]
    refine iff_of_true ?_ (fun promised => absurd promised enough)
    intro indices returned
    cases returned

/-- One conversation, the other options at their defaults. -/
def defaults : Options where
  n := 1
  threshold := 262144
  maxTurns := 0
  capIn := 0
  capOut := 0
  gapCap := some 10
  includeSubagents := false

/-- A call of its own, and a subagent with another. -/
def callAndSubagent : Session where
  requests := some
    [{ t := some 0, input := some 3, output := some 1, apiTime := none,
       type := none, requests := none },
      { t := some 1, input := none, output := none, apiTime := none,
        type := some "subagent",
        requests := some
          [{ t := some 2, input := some 2, output := some 1,
             apiTime := none }] }]

/-- Two sessions with a blank line between them; the shuffle swaps them. -/
theorem twoSessions_have_rows :
    let lines := [some twoCalls, none, some callAndSubagent]
    let opts := { defaults with n := 2, includeSubagents := true }
    selectIndices List.reverse lines opts none = .ok [2, 0] ∧
      let rows := buildRows lines [2, 0] true (some 10) 0 0 0 0
      (rows.length : Int) = 2 ∧ rows.map Row.convId = ["2", "0"] := by
  intro lines opts
  have selected : selectIndices List.reverse lines opts none =
      .ok [2, 0] := by
    decide +kernel
  refine ⟨selected, (rows_match_selection_iff List.reverse
    (fun items => items.reverse_perm) lines opts 0).mpr ?_ [2, 0] selected⟩
  intro _
  refine ⟨by decide, ?_⟩
  intro lineno _ sess listed
  simp only [lines, iterSessions, List.mem_cons, List.not_mem_nil,
    or_false, Prod.mk.injEq] at listed
  refine ⟨?_, fun negative => absurd negative (by decide)⟩
  intro _ _
  obtain ⟨-, rfl⟩ | ⟨-, rfl⟩ := listed
  · exact ⟨_, List.mem_cons_self .., .inl (by decide)⟩
  · exact ⟨_, List.mem_cons_self .., .inl (by decide)⟩

/-- A session without requests is within every threshold: it is selected and
has no row. -/
theorem session_without_requests_has_no_row :
    selectIndices id [some ⟨some []⟩] defaults none = .ok [0] ∧
      (buildRows [some ⟨some []⟩] [0] false (some 10) 0 0 0 0).length ≠
        1 := by
  decide +kernel

end LlmDRl.Weka
