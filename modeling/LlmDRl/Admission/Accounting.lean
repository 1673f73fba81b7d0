import LlmDRl.Admission.Ledger
import Mathlib.Tactic.Linarith

/-!
# What the bookings account for

`residentTokens` is what `_used` is meant to be: the latest context of every
request resident on a replica.  `slack` is what `_used` books beyond it.  Each
operation on the booking dictionaries is described once, by the slack it
leaves and by the turn it leaves each request at; the invariants over runs
are derived from these rules alone.
-/

namespace LlmDRl.Admission

open LlmDRl.Library

/-! ## Histories -/

namespace TurnHistory

/-- `turn` is the highest turn of the history. -/
structure LastTurn (history : TurnHistory) (turn : Nat) : Prop where
  present : (turn : Int) ∈ history.keys
  greatest : ∀ other ∈ history.keys, other ≤ (turn : Int)

theorem LastTurn.get?_eq
    {history : TurnHistory} {turn : Nat}
    (last : history.LastTurn turn) :
    history.get? (turn : Int) = some history.finalSize := by
  have highest : history.keys.max? = some (turn : Int) := by
    rw [List.max?_eq_some_iff]
    exact ⟨last.present, last.greatest⟩
  unfold finalSize
  rw [highest]
  cases found : history.get? (turn : Int) with
  | none =>
      exact absurd last.present ((history.get?_eq_none_iff _).mp found)
  | some size =>
      simp [OrderedDict.getD, found]

/-- Writing a turn no later turn follows makes it the last one. -/
theorem lastTurn_insert
    {history : TurnHistory} {turn : Nat} (size : ℚ)
    (bound : ∀ other ∈ history.keys, other ≤ (turn : Int)) :
    LastTurn (history.insert (turn : Int) size) turn := by
  by_cases present : (turn : Int) ∈ history.keys
  · constructor
    · rw [history.keys_insert_of_mem size present]
      exact present
    · rw [history.keys_insert_of_mem size present]
      exact bound
  · constructor
    · rw [history.keys_insert_of_not_mem size present]
      exact List.mem_append_right _ (List.mem_singleton_self _)
    · rw [history.keys_insert_of_not_mem size present]
      intro other member
      rcases List.mem_append.mp member with old | new
      · exact bound other old
      · exact le_of_eq (List.mem_singleton.mp new)

theorem finalSize_insert
    {history : TurnHistory} {turn : Nat} (size : ℚ)
    (bound : ∀ other ∈ history.keys, other ≤ (turn : Int)) :
    TurnHistory.finalSize (history.insert (turn : Int) size) = size := by
  have last := lastTurn_insert size bound
  have found := last.get?_eq
  rw [OrderedDict.get?_insert_self] at found
  exact (Option.some.inj found).symm

theorem LastTurn.entries_ne_nil
    {history : TurnHistory} {turn : Nat}
    (last : history.LastTurn turn) : history.entries ≠ [] := by
  intro empty
  have present := last.present
  simp [OrderedDict.keys, empty] at present

end TurnHistory

namespace Books

/-! ## Resident tokens and slack -/

/-- The latest recorded context of a request. -/
def latestSize (books : Books) (requestId : String) : ℚ :=
  (books.historyOf requestId).finalSize

/-- The latest contexts of the requests resident on a replica, summed. -/
def residentTokens (books : Books) (replica : String) : ℚ :=
  books.resident.sumWhere (fun r => r = replica) books.latestSize

/-- The same sum without one request. -/
def othersTokens (books : Books) (requestId replica : String) : ℚ :=
  (books.resident.erase requestId).sumWhere (fun r => r = replica)
    books.latestSize

def slack (books : Books) (replica : String) : ℚ :=
  books.used replica - books.residentTokens replica

theorem residentTokens_of_resident
    {books : Books} {requestId resident : String}
    (booked : books.resident.get? requestId = some resident)
    (replica : String) :
    books.residentTokens replica =
      books.othersTokens requestId replica +
        if resident = replica then books.latestSize requestId else 0 := by
  have split := OrderedDict.sumWhere_eq_erase_add books.resident
    (fun r => decide (r = replica)) books.latestSize booked
  simpa [residentTokens, othersTokens] using split

theorem residentTokens_of_unbooked
    {books : Books} {requestId : String}
    (unbooked : books.resident.get? requestId = none)
    (replica : String) :
    books.residentTokens replica =
      books.othersTokens requestId replica := by
  unfold residentTokens othersTokens
  rw [OrderedDict.erase_of_get?_eq_none books.resident requestId unbooked]

/-- Every recorded context is non-negative. -/
def SizesNonneg (books : Books) : Prop :=
  ∀ requestId history turnIndex size,
    books.history.get? requestId = some history →
      history.get? turnIndex = some size → 0 ≤ size

theorem SizesNonneg.latestSize_nonneg
    {books : Books} (nonneg : books.SizesNonneg) (requestId : String) :
    0 ≤ books.latestSize requestId := by
  unfold latestSize historyOf OrderedDict.getD
  cases found : books.history.get? requestId with
  | none =>
      exact le_refl _
  | some history =>
      simp only [Option.getD_some, TurnHistory.finalSize]
      cases history.keys.max? with
      | none =>
          exact le_refl _
      | some turnIndex =>
          simp only [OrderedDict.getD]
          cases size : history.get? turnIndex with
          | none =>
              exact le_refl _
          | some value =>
              exact nonneg requestId history turnIndex value found size

theorem SizesNonneg.othersTokens_nonneg
    {books : Books} (nonneg : books.SizesNonneg)
    (requestId replica : String) :
    0 ≤ books.othersTokens requestId replica :=
  OrderedDict.sumWhere_nonneg _ _
    (fun key _ _ _ => nonneg.latestSize_nonneg key)

/-! ## Where a request stands -/

/-- A request holds no booking, or is booked up to a turn. -/
def BookedUpTo (books : Books) (requestId : String) :
    Option Nat → Prop
  | none =>
      books.resident.get? requestId = none ∧
        books.history.get? requestId = none
  | some turn =>
      ∃ resident history,
        books.resident.get? requestId = some resident ∧
          books.history.get? requestId = some history ∧
            history.LastTurn turn

/-- Residency and history of every other request are the same. -/
def SameElsewhere (before after : Books) (requestId : String) : Prop :=
  ∀ other, other ≠ requestId →
    after.resident.get? other = before.resident.get? other ∧
      after.history.get? other = before.history.get? other

theorem SameElsewhere.bookedUpTo
    {before after : Books} {requestId other : String} {turn : Option Nat}
    (same : SameElsewhere before after requestId)
    (different : other ≠ requestId)
    (booked : before.BookedUpTo other turn) :
    after.BookedUpTo other turn := by
  obtain ⟨residentEq, historyEq⟩ := same other different
  cases turn with
  | none =>
      exact ⟨residentEq.trans booked.1, historyEq.trans booked.2⟩
  | some turn =>
      obtain ⟨resident, history, found, recorded, last⟩ := booked
      exact ⟨resident, history, residentEq.trans found,
        historyEq.trans recorded, last⟩

theorem SameElsewhere.latestSize_eq
    {before after : Books} {requestId other : String}
    (same : SameElsewhere before after requestId)
    (different : other ≠ requestId) :
    after.latestSize other = before.latestSize other := by
  unfold latestSize historyOf OrderedDict.getD
  rw [(same other different).2]

/-- The other requests account for the same tokens when the residency
dictionary is the same up to one key. -/
theorem SameElsewhere.othersTokens_eq
    {before after : Books} {requestId : String}
    (same : SameElsewhere before after requestId)
    (erased :
      after.resident.erase requestId = before.resident.erase requestId)
    (replica : String) :
    after.othersTokens requestId replica =
      before.othersTokens requestId replica := by
  unfold othersTokens
  rw [erased]
  apply OrderedDict.sumWhere_congr
  intro other _ found _
  apply same.latestSize_eq
  intro same
  subst same
  simp at found

theorem historyOf_of_get?
    {books : Books} {requestId : String} {history : TurnHistory}
    (recorded : books.history.get? requestId = some history) :
    books.historyOf requestId = history := by
  simp [historyOf, OrderedDict.getD, recorded]

/-! ## `_book` -/

theorem sameElsewhere_book
    (books : Books) (requestId replica : String)
    (turnIndex : Int) (contextSize charge : ℚ) :
    SameElsewhere books
      (books.book requestId replica turnIndex contextSize charge)
      requestId := by
  intro other different
  exact ⟨OrderedDict.get?_insert_of_ne _ _ different,
    OrderedDict.get?_insert_of_ne _ _ different⟩

theorem othersTokens_book
    (books : Books) (requestId replica : String)
    (turnIndex : Int) (contextSize charge : ℚ) (tested : String) :
    (books.book requestId replica turnIndex contextSize
        charge).othersTokens requestId tested =
      books.othersTokens requestId tested :=
  (sameElsewhere_book books requestId replica turnIndex contextSize
    charge).othersTokens_eq
      (OrderedDict.erase_insert books.resident requestId replica) tested

theorem latestSize_book
    {books : Books} {requestId replica : String} {turn : Nat}
    (contextSize charge : ℚ)
    (bound : ∀ other ∈ (books.historyOf requestId).keys,
      other ≤ (turn : Int)) :
    (books.book requestId replica turn contextSize
        charge).latestSize requestId = contextSize := by
  have written :
      (books.book requestId replica turn contextSize
          charge).historyOf requestId =
        (books.historyOf requestId).insert (turn : Int) contextSize :=
    historyOf_of_get? (OrderedDict.get?_insert_self _ _ _)
  unfold latestSize
  rw [written]
  exact TurnHistory.finalSize_insert contextSize bound

theorem bookedUpTo_book
    {books : Books} {requestId replica : String} {turn : Nat}
    (contextSize charge : ℚ)
    (bound : ∀ other ∈ (books.historyOf requestId).keys,
      other ≤ (turn : Int)) :
    (books.book requestId replica turn contextSize charge).BookedUpTo
      requestId (some turn) :=
  ⟨replica, _, OrderedDict.get?_insert_self _ _ _,
    OrderedDict.get?_insert_self _ _ _,
    TurnHistory.lastTurn_insert contextSize bound⟩

/-- Writing one non-negative context keeps all contexts non-negative. -/
theorem SizesNonneg.of_history_insert
    {before after : Books} {requestId : String}
    {turnIndex : Int} {contextSize : ℚ}
    (nonneg : before.SizesNonneg) (sizeNonneg : 0 ≤ contextSize)
    (written : after.history =
      before.history.insert requestId
        ((before.historyOf requestId).insert turnIndex contextSize)) :
    after.SizesNonneg := by
  intro other history tested size found recorded
  rw [written, OrderedDict.get?_insert] at found
  split at found
  · next same =>
      cases found
      rw [OrderedDict.get?_insert] at recorded
      split at recorded
      · cases recorded
        exact sizeNonneg
      · unfold historyOf OrderedDict.getD at recorded
        cases kept : before.history.get? requestId with
        | none =>
            simp [kept] at recorded
        | some old =>
            simp only [kept, Option.getD_some] at recorded
            exact nonneg requestId old tested size kept recorded
  · exact nonneg other history tested size found recorded

theorem SizesNonneg.book
    {books : Books} (nonneg : books.SizesNonneg)
    (requestId replica : String) (turnIndex : Int)
    {contextSize : ℚ} (sizeNonneg : 0 ≤ contextSize) (charge : ℚ) :
    (books.book requestId replica turnIndex contextSize
      charge).SizesNonneg :=
  nonneg.of_history_insert sizeNonneg rfl

theorem used_book
    (books : Books) (requestId replica : String)
    (turnIndex : Int) (contextSize charge : ℚ) (tested : String) :
    (books.book requestId replica turnIndex contextSize charge).used
        tested =
      books.used tested +
        if replica = tested then
          books.bookedTokens requestId replica turnIndex contextSize
        else 0 := by
  by_cases same : replica = tested
  · subst tested
    simp [book]
  · simp [book, same, Function.update_of_ne (Ne.symm same)]

/-- A booking of `size` tokens moves the slack by what it adds to `_used`
beyond the change of the request's latest context. -/
theorem slack_book
    {books : Books} {requestId replica : String} {turn : Nat}
    (contextSize charge : ℚ)
    (bound : ∀ other ∈ (books.historyOf requestId).keys,
      other ≤ (turn : Int))
    (tested : String) :
    (books.book requestId replica turn contextSize charge).slack tested =
      books.used tested - books.othersTokens requestId tested +
        if replica = tested then
          books.bookedTokens requestId replica turn contextSize -
            contextSize
        else 0 := by
  have resident :
      (books.book requestId replica turn contextSize
          charge).resident.get? requestId = some replica :=
    OrderedDict.get?_insert_self _ _ _
  unfold slack
  rw [residentTokens_of_resident resident, othersTokens_book,
    latestSize_book contextSize charge bound, used_book]
  split <;> ring

theorem bookedTokens_of_unbooked
    {books : Books} {requestId : String}
    (unbooked : books.BookedUpTo requestId none)
    (replica : String) (turnIndex : Int) (contextSize : ℚ) :
    books.bookedTokens requestId replica turnIndex contextSize =
      contextSize := by
  simp [bookedTokens, historyOf, OrderedDict.getD, unbooked.2]

/-- Away from its replica a trajectory is booked with its whole context. -/
theorem bookedTokens_of_away
    {books : Books} {requestId replica : String}
    (away : books.resident.get? requestId ≠ some replica)
    (turnIndex : Int) (contextSize : ℚ) :
    books.bookedTokens requestId replica turnIndex contextSize =
      contextSize := by
  unfold bookedTokens
  cases (books.historyOf requestId).get? (turnIndex - 1) with
  | some prev =>
      exact if_neg away
  | none =>
      rfl

/-- A first booking leaves the slack as it was. -/
theorem slack_book_first
    {books : Books} {requestId : String}
    (unbooked : books.BookedUpTo requestId none)
    (replica : String) (turn : Nat) (contextSize charge : ℚ)
    (tested : String) :
    (books.book requestId replica turn contextSize charge).slack tested =
      books.slack tested := by
  have bound : ∀ other ∈ (books.historyOf requestId).keys,
      other ≤ (turn : Int) := by
    simp [historyOf, OrderedDict.getD, unbooked.2, OrderedDict.keys,
      OrderedDict.empty]
  rw [slack_book contextSize charge bound,
    bookedTokens_of_unbooked unbooked, slack,
    residentTokens_of_unbooked unbooked.1]
  simp

/-- A booking in place leaves behind what the context shrank by. -/
theorem slack_book_inPlace
    {books : Books} {requestId resident : String}
    {history : TurnHistory} {turn : Nat}
    (booked : books.resident.get? requestId = some resident)
    (recorded : books.history.get? requestId = some history)
    (last : history.LastTurn turn)
    (contextSize charge : ℚ) (tested : String) :
    (books.book requestId resident ((turn + 1 : Nat) : Int) contextSize
        charge).slack tested =
      books.slack tested +
        if resident = tested then
          max 0 (books.latestSize requestId - contextSize)
        else 0 := by
  have historyEq := historyOf_of_get? recorded
  have bound : ∀ other ∈ (books.historyOf requestId).keys,
      other ≤ ((turn + 1 : Nat) : Int) := by
    intro other member
    rw [historyEq] at member
    have upper := last.greatest other member
    omega
  have tokens :
      books.bookedTokens requestId resident ((turn + 1 : Nat) : Int)
          contextSize =
        max 0 (contextSize - books.latestSize requestId) := by
    have previous : ((turn + 1 : Nat) : Int) - 1 = (turn : Int) := by
      omega
    simp only [bookedTokens, previous, historyEq, last.get?_eq, booked,
      if_true, latestSize]
  rw [slack_book contextSize charge bound, tokens, slack,
    residentTokens_of_resident booked]
  by_cases same : resident = tested
  · simp only [if_pos same]
    rcases le_total contextSize (books.latestSize requestId) with
      shrunk | grown
    · rw [max_eq_left (by linarith), max_eq_right (by linarith)]
      ring
    · rw [max_eq_right (by linarith), max_eq_left (by linarith)]
      ring
  · simp only [if_neg same]
    ring

/-! ## Migration -/

theorem used_releaseBooking
    {books : Books} {requestId resident : String}
    {history : TurnHistory} {turn : Nat}
    (booked : books.resident.get? requestId = some resident)
    (recorded : books.history.get? requestId = some history)
    (last : history.LastTurn turn)
    (nonneg : books.SizesNonneg)
    (covered : 0 ≤ books.slack resident) :
    (books.releaseBooking requestId resident turn).used resident =
      books.used resident - books.latestSize requestId := by
  have size :
      (books.historyOf requestId).getD (turn : Int) 0 =
        books.latestSize requestId := by
    simp [latestSize, historyOf_of_get? recorded, OrderedDict.getD,
      last.get?_eq]
  have enough : 0 ≤ books.used resident - books.latestSize requestId := by
    have others := nonneg.othersTokens_nonneg requestId resident
    rw [slack, residentTokens_of_resident booked, if_pos rfl] at covered
    linarith
  simp only [releaseBooking, Function.update_self, size]
  exact max_eq_right enough

theorem used_releaseBooking_of_ne
    (books : Books) (requestId : String) {resident tested : String}
    (turnIndex : Int) (different : tested ≠ resident) :
    (books.releaseBooking requestId resident turnIndex).used tested =
      books.used tested := by
  simp [releaseBooking, Function.update_of_ne different]

/-- A migration moves the request's tokens and nothing else. -/
theorem slack_move
    {books : Books} {requestId resident target : String}
    {history : TurnHistory} {turn : Nat}
    (booked : books.resident.get? requestId = some resident)
    (recorded : books.history.get? requestId = some history)
    (last : history.LastTurn turn)
    (different : target ≠ resident)
    (nonneg : books.SizesNonneg)
    (covered : 0 ≤ books.slack resident)
    (contextSize charge : ℚ) (tested : String) :
    ((books.releaseBooking requestId resident turn).book requestId target
        ((turn + 1 : Nat) : Int) contextSize charge).slack tested =
      books.slack tested := by
  have historyEq := historyOf_of_get? recorded
  let released := books.releaseBooking requestId resident turn
  have bound : ∀ other ∈ (released.historyOf requestId).keys,
      other ≤ ((turn + 1 : Nat) : Int) := by
    intro other member
    change other ∈ (books.historyOf requestId).keys at member
    rw [historyEq] at member
    have upper := last.greatest other member
    omega
  have tokens :
      released.bookedTokens requestId target ((turn + 1 : Nat) : Int)
          contextSize = contextSize := by
    have away : released.resident.get? requestId ≠ some target := by
      change books.resident.get? requestId ≠ some target
      rw [booked]
      exact fun same => different (Option.some.inj same).symm
    exact bookedTokens_of_away away _ contextSize
  have others :
      released.othersTokens requestId tested =
        books.othersTokens requestId tested := rfl
  rw [slack_book contextSize charge bound, tokens, others, slack,
    residentTokens_of_resident booked]
  by_cases same : resident = tested
  · subst tested
    rw [used_releaseBooking booked recorded last nonneg covered]
    simp
    ring
  · rw [used_releaseBooking_of_ne books requestId _ (Ne.symm same)]
    simp [same]

/-! ## `record_turn` -/

theorem recordTurn_of_resident
    {books : Books} {requestId resident : String}
    (booked : books.resident.get? requestId = some resident)
    (turnIndex : Int) (contextSize charge : ℚ) :
    books.recordTurn requestId turnIndex contextSize charge =
      { used := Function.update books.used resident
          (books.used resident + (contextSize -
            (books.historyOf requestId).getD turnIndex contextSize))
        resident := books.resident
        history := books.history.insert requestId
          ((books.historyOf requestId).insert turnIndex contextSize)
        reserveCharge := books.reserveCharge.insert requestId charge } := by
  simp only [recordTurn, booked]
  split
  · rfl
  · next unchanged =>
      simp only [ne_eq, not_not] at unchanged
      rw [unchanged, add_zero, Function.update_eq_self]

theorem resident_recordTurn
    (books : Books) (requestId : String)
    (turnIndex : Int) (contextSize charge : ℚ) :
    (books.recordTurn requestId turnIndex contextSize charge).resident =
      books.resident := by
  unfold recordTurn
  split <;> rfl

theorem sameElsewhere_recordTurn
    (books : Books) (requestId : String)
    (turnIndex : Int) (contextSize charge : ℚ) :
    SameElsewhere books
      (books.recordTurn requestId turnIndex contextSize charge)
      requestId := by
  intro other different
  cases booked : books.resident.get? requestId with
  | none =>
      simp [recordTurn, booked]
  | some resident =>
      rw [recordTurn_of_resident booked]
      exact ⟨rfl, OrderedDict.get?_insert_of_ne _ _ different⟩

theorem latestSize_recordTurn
    {books : Books} {requestId : String} {turn : Nat}
    (bookedUpTo : books.BookedUpTo requestId (some turn))
    (contextSize charge : ℚ) :
    (books.recordTurn requestId turn contextSize charge).latestSize
      requestId = contextSize := by
  obtain ⟨resident, history, booked, recorded, last⟩ := bookedUpTo
  have written :
      (books.recordTurn requestId turn contextSize charge).historyOf
          requestId =
        (books.historyOf requestId).insert (turn : Int) contextSize := by
    rw [recordTurn_of_resident booked]
    exact historyOf_of_get? (OrderedDict.get?_insert_self _ _ _)
  rw [latestSize, written, historyOf_of_get? recorded]
  exact TurnHistory.finalSize_insert contextSize last.greatest

/-- Recording the last turn corrects `_used` by exactly what it corrects the
request's latest context by. -/
theorem slack_recordTurn
    {books : Books} {requestId : String} {turn : Nat}
    (bookedUpTo : books.BookedUpTo requestId (some turn))
    (contextSize charge : ℚ) (tested : String) :
    (books.recordTurn requestId turn contextSize charge).slack tested =
      books.slack tested := by
  have latest := latestSize_recordTurn bookedUpTo contextSize charge
  have same :=
    sameElsewhere_recordTurn books requestId turn contextSize charge
  obtain ⟨resident, history, booked, recorded, last⟩ := bookedUpTo
  have size :
      (books.historyOf requestId).getD (turn : Int) contextSize =
        books.latestSize requestId := by
    simp [latestSize, historyOf_of_get? recorded, OrderedDict.getD,
      last.get?_eq]
  have after := recordTurn_of_resident booked turn contextSize charge
  rw [size] at after
  have residents :=
    resident_recordTurn books requestId turn contextSize charge
  have others := same.othersTokens_eq (by rw [residents]) tested
  have home := booked
  rw [← residents] at home
  rw [slack, slack, residentTokens_of_resident home,
    residentTokens_of_resident booked, others, latest]
  by_cases here : resident = tested
  · subst tested
    simp only [after, Function.update_self, if_true]
    ring
  · simp only [after, if_neg here,
      Function.update_of_ne (Ne.symm here)]

theorem bookedUpTo_recordTurn
    {books : Books} {requestId : String} {turn : Nat}
    (bookedUpTo : books.BookedUpTo requestId (some turn))
    (contextSize charge : ℚ) :
    (books.recordTurn requestId turn contextSize charge).BookedUpTo
      requestId (some turn) := by
  obtain ⟨resident, history, booked, recorded, last⟩ := bookedUpTo
  rw [recordTurn_of_resident booked]
  refine ⟨resident, _, booked, OrderedDict.get?_insert_self _ _ _, ?_⟩
  rw [historyOf_of_get? recorded]
  exact TurnHistory.lastTurn_insert contextSize last.greatest

theorem SizesNonneg.recordTurn
    {books : Books} (nonneg : books.SizesNonneg)
    (requestId : String) (turnIndex : Int)
    {contextSize : ℚ} (sizeNonneg : 0 ≤ contextSize) (charge : ℚ) :
    (books.recordTurn requestId turnIndex contextSize
      charge).SizesNonneg := by
  cases booked : books.resident.get? requestId with
  | none =>
      simpa [Books.recordTurn, booked] using nonneg
  | some resident =>
      rw [recordTurn_of_resident booked]
      exact nonneg.of_history_insert sizeNonneg rfl

/-! ## `on_trajectory_done` -/

/-- The three dictionaries lose the request's entry. -/
theorem popped_onTrajectoryDone (books : Books) (requestId : String) :
    (books.onTrajectoryDone requestId).resident =
        books.resident.erase requestId ∧
      (books.onTrajectoryDone requestId).history =
        books.history.erase requestId ∧
      (books.onTrajectoryDone requestId).reserveCharge =
        books.reserveCharge.erase requestId := by
  unfold onTrajectoryDone
  dsimp only
  split
  · exact ⟨rfl, rfl, rfl⟩
  · split <;> exact ⟨rfl, rfl, rfl⟩

theorem sameElsewhere_onTrajectoryDone
    (books : Books) (requestId : String) :
    SameElsewhere books (books.onTrajectoryDone requestId) requestId := by
  intro other different
  obtain ⟨resident, history, _⟩ := popped_onTrajectoryDone books requestId
  rw [resident, history]
  exact ⟨OrderedDict.get?_erase_of_ne _ different,
    OrderedDict.get?_erase_of_ne _ different⟩

theorem bookedUpTo_onTrajectoryDone
    (books : Books) (requestId : String) :
    (books.onTrajectoryDone requestId).BookedUpTo requestId none := by
  obtain ⟨resident, history, _⟩ := popped_onTrajectoryDone books requestId
  rw [BookedUpTo, resident, history]
  exact ⟨OrderedDict.get?_erase_self _ _, OrderedDict.get?_erase_self _ _⟩

theorem resident_erase_onTrajectoryDone
    (books : Books) (requestId : String) :
    (books.onTrajectoryDone requestId).resident.erase requestId =
      books.resident.erase requestId := by
  rw [(popped_onTrajectoryDone books requestId).1]
  exact OrderedDict.erase_of_get?_eq_none _ _
    (OrderedDict.get?_erase_self _ _)

theorem SizesNonneg.onTrajectoryDone
    {books : Books} (nonneg : books.SizesNonneg) (requestId : String) :
    (books.onTrajectoryDone requestId).SizesNonneg := by
  intro other history turnIndex size found recorded
  by_cases same : other = requestId
  · subst other
    have gone := (bookedUpTo_onTrajectoryDone books requestId).2
    rw [gone] at found
    cases found
  · rw [(sameElsewhere_onTrajectoryDone books requestId other same).2]
      at found
    exact nonneg other history turnIndex size found recorded

/-- The final release is never cut short by the clamp. -/
theorem used_onTrajectoryDone
    {books : Books} {requestId resident : String}
    {history : TurnHistory} {turn : Nat}
    (booked : books.resident.get? requestId = some resident)
    (recorded : books.history.get? requestId = some history)
    (last : history.LastTurn turn)
    (nonneg : books.SizesNonneg)
    (covered : 0 ≤ books.slack resident) (tested : String) :
    (books.onTrajectoryDone requestId).used tested =
      books.used tested -
        if resident = tested then books.latestSize requestId else 0 := by
  have historyEq := historyOf_of_get? recorded
  have notEmpty : (books.historyOf requestId).entries ≠ [] := by
    rw [historyEq]
    exact last.entries_ne_nil
  have released :
      (books.onTrajectoryDone requestId).used =
        Function.update books.used resident
          (max 0 (books.used resident - books.latestSize requestId)) := by
    simp only [onTrajectoryDone, booked, if_neg notEmpty, latestSize]
  have enough : 0 ≤ books.used resident - books.latestSize requestId := by
    have others := nonneg.othersTokens_nonneg requestId resident
    rw [slack, residentTokens_of_resident booked, if_pos rfl] at covered
    linarith
  rw [released, max_eq_right enough]
  by_cases here : resident = tested
  · subst tested
    simp
  · simp [here, Function.update_of_ne (Ne.symm here)]

theorem slack_onTrajectoryDone
    {books : Books} {requestId : String} {turn : Nat}
    (bookedUpTo : books.BookedUpTo requestId (some turn))
    (nonneg : books.SizesNonneg)
    (covered : ∀ replica, 0 ≤ books.slack replica)
    (tested : String) :
    (books.onTrajectoryDone requestId).slack tested =
      books.slack tested := by
  obtain ⟨resident, history, booked, recorded, last⟩ := bookedUpTo
  have others :=
    (sameElsewhere_onTrajectoryDone books requestId).othersTokens_eq
      (resident_erase_onTrajectoryDone books requestId) tested
  rw [slack, slack,
    residentTokens_of_unbooked
      (bookedUpTo_onTrajectoryDone books requestId).1,
    residentTokens_of_resident booked, others,
    used_onTrajectoryDone booked recorded last nonneg
      (covered resident)]
  ring

end Books

end LlmDRl.Admission
