import LlmDRl.Rollout.GenerateRequest
import Mathlib.Logic.Function.Basic

/-!
# What a generate request asks for

The values that the members of a body name, as they stand there, and how the
decoded request hangs together with them: a field that is not named is zero,
and a named one holds what its value is read as.
-/

namespace LlmDRl.Rollout

/-! ## Values of a body -/

inductive Scalar where
  | null
  | number (value : ℚ)
  | text (value : String)
  | other
  deriving DecidableEq, Repr

inductive Value where
  | scalar (value : Scalar)
  | list (items : List Scalar)
  deriving DecidableEq, Repr

def Json.scalar : Json → Scalar
  | .null => .null
  | .integer value => .number value
  | .decimal value => .number value
  | .text value => .text value
  | _ => .other

/-- A value without the way it is written. -/
def Json.value : Json → Value
  | .list items => .list (items.map Json.scalar)
  | value => .scalar value.scalar

/-! ## Named values -/

/-- A later member takes the place of an earlier one.  `null` names no value;
for a list it takes back the value named before. -/
def namedAfter (ofList : Bool) (named : Option Json) : Json → Option Json
  | .null => if ofList then none else named
  | value => some value

def SamplingField.ofList : SamplingField → Bool
  | stop => true
  | _ => false

/-- The members of an object, named one after the other. -/
def addMembers {φ ν : Type} (field? : String → Option φ)
    (add : ν → φ → Json → ν) : ν → List (String × Json) → ν
  | named, [] => named
  | named, (key, value) :: rest =>
      match field? key with
      | none => addMembers field? add named rest
      | some field => addMembers field? add (add named field value) rest

def addSamplingMember (named : SamplingField → Option Json)
    (field : SamplingField) (value : Json) : SamplingField → Option Json :=
  Function.update named field (namedAfter field.ofList (named field) value)

/-- The values that a body names for the engine. -/
structure Asked where
  prompt : Option Json := none
  promptTokenIDs : Option Json := none
  sampling : SamplingField → Option Json := fun _ => none

def Asked.add (asked : Asked) (field : RequestField) (value : Json) : Asked :=
  match field, value with
  | .prompt, value => { asked with prompt := namedAfter false asked.prompt value }
  | .promptTokenIDs, value =>
      { asked with promptTokenIDs := namedAfter true asked.promptTokenIDs value }
  | .samplingParams, .null => { asked with sampling := fun _ => none }
  | .samplingParams, .object members =>
      { asked with
        sampling :=
          addMembers samplingField? addSamplingMember asked.sampling members }
  | _, _ => asked

def Json.asked : Json → Asked
  | .object members => addMembers requestField? Asked.add {} members
  | _ => {}

/-! ## Decoded values -/

variable {α β ε : Type}

theorem exists_of_map_eq_ok {result : Except ε α} {f : α → β} {mapped : β}
    (maps : result.map f = .ok mapped) :
    ∃ value, result = .ok value ∧ f value = mapped := by
  cases result with
  | error error => cases maps
  | ok value => exact ⟨value, rfl, Except.ok.inj maps⟩

/-- A plain field holds what its named value is read as. -/
def Holds (read : Json → Decoded α) (zero : α) (named : Option Json)
    (decoded : α) : Prop :=
  match named with
  | none => decoded = zero
  | some value => read value = .ok decoded

theorem Holds.after {read : Json → Decoded α} {zero old new : α}
    {named : Option Json} {value : Json} (holds : Holds read zero named old)
    (reads : keepNull read old value = .ok new) :
    Holds read zero (namedAfter false named value) new := by
  cases value with
  | null =>
      rw [← Except.ok.inj reads]
      exact holds
  | bool | integer | decimal | text | list | object => exact reads

/-- Every item but `null` is held by its cell. -/
def HoldsItem (read : Json → Decoded α) (item : Json) (cell : α) : Prop :=
  item = .null ∨ read item = .ok cell

def HoldsSlice (read : Json → Decoded α) (named : Option Json)
    (decoded : Option (Slice α)) : Prop :=
  match named with
  | none => decoded = none
  | some value => ∃ items slice,
      value = .list items ∧ decoded = some slice ∧
        List.Forall₂ (HoldsItem read) items slice.items

theorem holdsItem_of_keepNull {read : Json → Decoded α} {old new : α}
    {item : Json} (reads : keepNull read old item = .ok new) :
    HoldsItem read item new := by
  cases item with
  | null => exact .inl rfl
  | bool | integer | decimal | text | list | object => exact .inr reads

theorem holdsItems_of_decodeCells {read : Json → Decoded α} {zero : α}
    {cells : List α} {items : List Json} {decoded : List α}
    (decodes : decodeCells read zero cells items = .ok decoded) :
    List.Forall₂ (HoldsItem read) items (decoded.take items.length) := by
  induction items generalizing cells decoded with
  | nil =>
      rw [List.length_nil, List.take_zero]
      exact .nil
  | cons item rest inductionHypothesis =>
      rw [decodeCells] at decodes
      cases first : keepNull read (cells.head?.getD zero) item with
      | error error =>
          simp only [first] at decodes
          cases decodes
      | ok cell =>
          cases others : decodeCells read zero cells.tail rest with
          | error error =>
              simp only [first, others] at decodes
              cases decodes
          | ok later =>
              simp only [first, others, Except.ok.injEq] at decodes
              rw [← decodes, List.length_cons, List.take_succ_cons]
              exact .cons (holdsItem_of_keepNull first)
                (inductionHypothesis others)

theorem holdsSlice_of_decodeSlice {read : Json → Decoded α} {zero : α}
    {error : DecodeError} {old new : Option (Slice α)} {value : Json}
    (named : Option Json)
    (decodes : decodeSlice read zero error old value = .ok new) :
    HoldsSlice read (namedAfter true named value) new := by
  cases value with
  | null => exact (Except.ok.inj decodes).symm
  | list items =>
      cases items with
      | nil => exact ⟨[], ⟨[], 0⟩, rfl, (Except.ok.inj decodes).symm, .nil⟩
      | cons item rest =>
          rw [decodeSlice] at decodes
          · cases cellsDecode : decodeCells read zero
                ((old.map Slice.cells).getD []) (item :: rest) with
            | error error =>
                simp only [cellsDecode] at decodes
                cases decodes
            | ok cells =>
                simp only [cellsDecode, Except.ok.injEq] at decodes
                exact ⟨item :: rest, _, rfl, decodes.symm,
                  holdsItems_of_decodeCells cellsDecode⟩
          · intro nil
            cases nil
  | bool | integer | decimal | text | object => cases decodes

/-- What every member keeps between the decoded and the named values holds
after all of them. -/
theorem rel_of_decodeMembers {φ σ ν : Type} {field? : String → Option φ}
    {assign : σ → φ → Json → Decoded σ} {add : ν → φ → Json → ν}
    {Rel : σ → ν → Prop}
    (kept : ∀ state named field value next, Rel state named →
      assign state field value = .ok next → Rel next (add named field value))
    {members : List (String × Json)} {state decoded : σ} {named : ν}
    (rel : Rel state named)
    (decodes : decodeMembers field? assign state members = .ok decoded) :
    Rel decoded (addMembers field? add named members) := by
  induction members generalizing state named with
  | nil =>
      rw [← Except.ok.inj decodes]
      exact rel
  | cons member rest inductionHypothesis =>
      obtain ⟨key, value⟩ := member
      rw [decodeMembers] at decodes
      rw [addMembers]
      cases found : field? key with
      | none =>
          simp only [found] at decodes ⊢
          exact inductionHypothesis rel decodes
      | some field =>
          simp only [found] at decodes ⊢
          cases assigns : assign state field value with
          | error error =>
              simp only [assigns] at decodes
              cases decodes
          | ok next =>
              simp only [assigns] at decodes
              exact inductionHypothesis
                (kept state named field value next rel assigns) decodes

/-! ## Decoded sampling parameters -/

/-- One field of the decoded parameters holds the value named for it. -/
def SamplingParams.Holds (params : SamplingParams) (field : SamplingField)
    (named : Option Json) : Prop :=
  match field with
  | .temperature =>
      Rollout.Holds (readFloat32 field.error) 0 named params.temperature
  | .topP => Rollout.Holds (readFloat32 field.error) 0 named params.topP
  | .topK => Rollout.Holds (readInt 64 field.error) 0 named params.topK
  | .maxTokens =>
      Rollout.Holds (readInt 64 field.error) 0 named params.maxTokens
  | .n => Rollout.Holds (readInt 64 field.error) 0 named params.nSamples
  | .stop =>
      HoldsSlice (readText { field.error with goType := "string" }) named
        params.stopStrings

def SamplingParams.HoldsAll (params : SamplingParams)
    (named : SamplingField → Option Json) : Prop :=
  ∀ field, params.Holds field (named field)

theorem SamplingParams.holdsAll_default :
    ({} : SamplingParams).HoldsAll (fun _ => none) := by
  intro field
  cases field <;> rfl

theorem SamplingParams.holds_assign {params assigned : SamplingParams}
    {field : SamplingField} {named : Option Json} {value : Json}
    (holds : params.Holds field named)
    (assigns : params.assign field value = .ok assigned) :
    assigned.Holds field (namedAfter field.ofList named value) := by
  cases field <;> obtain ⟨decoded, reads, rfl⟩ := exists_of_map_eq_ok assigns
  case stop => exact holdsSlice_of_decodeSlice named reads
  all_goals exact Rollout.Holds.after holds reads

/-- A member leaves the other fields as they are. -/
theorem SamplingParams.holds_assign_of_ne {params assigned : SamplingParams}
    {field probe : SamplingField} (different : probe ≠ field)
    {named : Option Json} {value : Json}
    (assigns : params.assign field value = .ok assigned) :
    assigned.Holds probe named ↔ params.Holds probe named := by
  cases field <;> obtain ⟨decoded, -, rfl⟩ := exists_of_map_eq_ok assigns <;>
    cases probe <;> first | exact Iff.rfl | exact absurd rfl different

theorem SamplingParams.holdsAll_assign {params assigned : SamplingParams}
    {field : SamplingField} {named : SamplingField → Option Json}
    {value : Json} (holds : params.HoldsAll named)
    (assigns : params.assign field value = .ok assigned) :
    assigned.HoldsAll (addSamplingMember named field value) := by
  intro probe
  unfold addSamplingMember
  by_cases same : probe = field
  · subst same
    rw [Function.update_self]
    exact holds_assign (holds probe) assigns
  · rw [Function.update_of_ne same]
    exact (holds_assign_of_ne same assigns).mpr (holds probe)

theorem SamplingParams.holdsAll_decode {members : List (String × Json)}
    {params decoded : SamplingParams} {named : SamplingField → Option Json}
    (holds : params.HoldsAll named)
    (decodes : params.decode members = .ok decoded) :
    decoded.HoldsAll (addMembers samplingField? addSamplingMember named
      members) := by
  have kept : ∀ (state : SamplingParams) named field value next,
      state.HoldsAll named → state.assign field value = .ok next →
        next.HoldsAll (addSamplingMember named field value) := by
    intro state named field value next holds assigns
    exact holdsAll_assign holds assigns
  exact rel_of_decodeMembers kept holds decodes

/-! ## Decoded requests -/

/-- The sampling parameters of a request; without them all are zero. -/
def GenerateRequest.params (req : GenerateRequest) : SamplingParams :=
  req.samplingParams.getD {}

structure GenerateRequest.Holds (req : GenerateRequest) (asked : Asked) :
    Prop where
  prompt :
    Rollout.Holds (readText RequestField.prompt.error) "" asked.prompt
      req.prompt
  promptTokenIDs :
    HoldsSlice
      (readInt 32 { RequestField.promptTokenIDs.error with goType := "int32" })
      asked.promptTokenIDs req.promptTokenIDs
  sampling : req.params.HoldsAll asked.sampling

theorem GenerateRequest.holds_default :
    ({} : GenerateRequest).Holds {} :=
  ⟨rfl, rfl, SamplingParams.holdsAll_default⟩

theorem GenerateRequest.holds_assign {req assigned : GenerateRequest}
    {asked : Asked} {field : RequestField} {value : Json}
    (holds : req.Holds asked)
    (assigns : req.assign field value = .ok assigned) :
    assigned.Holds (asked.add field value) := by
  cases field <;> obtain ⟨decoded, reads, rfl⟩ := exists_of_map_eq_ok assigns
  case prompt =>
    exact ⟨holds.prompt.after reads, holds.promptTokenIDs, holds.sampling⟩
  case promptTokenIDs =>
    exact ⟨holds.prompt, holdsSlice_of_decodeSlice asked.promptTokenIDs reads,
      holds.sampling⟩
  case samplingParams =>
    cases value with
    | null =>
        rw [← Except.ok.inj reads]
        exact ⟨holds.prompt, holds.promptTokenIDs,
          SamplingParams.holdsAll_default⟩
    | object members =>
        obtain ⟨params, paramsDecode, rfl⟩ := exists_of_map_eq_ok reads
        exact ⟨holds.prompt, holds.promptTokenIDs,
          SamplingParams.holdsAll_decode holds.sampling paramsDecode⟩
    | bool | integer | decimal | text | list => cases reads
  all_goals exact ⟨holds.prompt, holds.promptTokenIDs, holds.sampling⟩

/-- An accepted request holds what its body asks for. -/
theorem GenerateRequest.holds_decode {body : Json} {req : GenerateRequest}
    (accepted : decode body = .ok req) : req.Holds body.asked := by
  cases body with
  | null =>
      rw [← Except.ok.inj accepted]
      exact holds_default
  | object members =>
      have kept : ∀ (state : GenerateRequest) asked field value next,
          state.Holds asked → state.assign field value = .ok next →
            next.Holds (asked.add field value) := by
        intro state asked field value next holds assigns
        exact holds_assign holds assigns
      exact rel_of_decodeMembers kept holds_default accepted
  | bool | integer | decimal | text | list => cases accepted

end LlmDRl.Rollout
