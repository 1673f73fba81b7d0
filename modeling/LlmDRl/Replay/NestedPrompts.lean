import LlmDRl.Library.Generator
import LlmDRl.Library.Utf8
import Mathlib.Algebra.Ring.Nat
import Mathlib.Data.List.Induction

/-!
# Synthetic prompts

`nested_prompt_ids` of the trace player makes the token ids of a turn with a
64-bit linear congruential generator, seeded by the conversation alone.  All
turns of a conversation therefore take their prompts from one stream.
-/

namespace LlmDRl.Replay

open LlmDRl.Library

/-- `ZeroDivisionError` -/
inductive PromptError where
  | zeroDivision
  deriving DecidableEq, Repr

/-- `int.from_bytes(data, "big")` -/
def fromBytes (data : List UInt8) : Nat :=
  data.foldl (fun value byte => value * 256 + byte.toNat) 0

variable (blake2b : List UInt8 → Vector UInt8 8) (convId : String)

/-- `_stable_seed`; `blake2b` is the digest of eight bytes. -/
def stableSeed : Nat :=
  fromBytes (blake2b (Utf8.encode convId)).toList

/-- One step of the generator, on states of 64 bits. -/
def nextState (state : Nat) : Nat :=
  (state * 6364136223846793005 + 1442695040888963407) &&& 0xFFFFFFFFFFFFFFFF

/-- `vocab_lo + (state >> 33) % span` -/
def tokenId (vocabLo span : Int) (state : Nat) : Except PromptError Int :=
  if span = 0 then
    .error .zeroDivision
  else
    .ok (vocabLo + Int.fmod (state >>> 33 : Nat) span)

/-- `_stable_seed(conv_id) or 1` -/
def firstState : Nat :=
  if stableSeed blake2b convId = 0 then 1 else stableSeed blake2b convId

def nestedPromptIds (n : Int) (vocabLo : Int := 10) (vocabHi : Int := 30000) :
    Except PromptError (List Int) :=
  let n := max 1 n
  let span := vocabHi - vocabLo
  appendLoop nextState (tokenId vocabLo span) n.toNat
    (firstState blake2b convId) []

/-! ## Seeds -/

theorem fromBytes_append_singleton (data : List UInt8) (byte : UInt8) :
    fromBytes (data ++ [byte]) = fromBytes data * 256 + byte.toNat := by
  unfold fromBytes
  rw [List.foldl_append, List.foldl_cons, List.foldl_nil]

theorem fromBytes_lt (data : List UInt8) :
    fromBytes data < 256 ^ data.length := by
  induction data using List.reverseRecOn with
  | nil =>
      exact Nat.one_pos
  | append_singleton data byte inductionHypothesis =>
      have small : byte.toNat < 256 := byte.toNat_lt
      rw [fromBytes_append_singleton, List.length_append,
        List.length_singleton, pow_succ]
      omega

theorem exists_fromBytes_eq {count value : Nat} (fits : value < 256 ^ count) :
    ∃ data : List UInt8, data.length = count ∧ fromBytes data = value := by
  induction count generalizing value with
  | zero =>
      have zero : value = 0 := by
        rw [pow_zero] at fits
        omega
      exact ⟨[], rfl, zero.symm⟩
  | succ count inductionHypothesis =>
      have fewer : value / 256 < 256 ^ count := by
        rw [pow_succ] at fits
        omega
      obtain ⟨data, length, high⟩ := inductionHypothesis fewer
      have low : (UInt8.ofNat (value % 256)).toNat = value % 256 := by
        rw [UInt8.toNat_ofNat']
        omega
      refine ⟨data ++ [UInt8.ofNat (value % 256)], ?_, ?_⟩
      · rw [List.length_append, List.length_singleton, length]
      · rw [fromBytes_append_singleton, high, low]
        omega

/-- The seeds are the 64-bit values. -/
theorem exists_stableSeed_eq_iff (seed : Nat) :
    (∃ digest : List UInt8 → Vector UInt8 8,
      stableSeed digest convId = seed) ↔ seed < 2 ^ 64 := by
  constructor
  · rintro ⟨digest, rfl⟩
    have below := fromBytes_lt (digest (Utf8.encode convId)).toList
    rw [Vector.length_toList] at below
    exact below
  · intro fits
    have bytes : seed < 256 ^ 8 := fits
    obtain ⟨data, length, value⟩ := exists_fromBytes_eq bytes
    refine ⟨fun _ => ⟨data.toArray, length⟩, ?_⟩
    exact value

/-! ## The stream of a conversation -/

/-- All the token ids of a conversation. -/
def tokenStream (vocabLo vocabHi : Int) : Stream' Int :=
  appended nextState
    (fun state => vocabLo + Int.fmod (state >>> 33 : Nat) (vocabHi - vocabLo))
    (firstState blake2b convId)

variable {blake2b convId}

variable {vocabLo vocabHi : Int}

theorem tokenStream_within (range : vocabLo < vocabHi) (index : ℕ) :
    vocabLo ≤ (tokenStream blake2b convId vocabLo vocabHi).get index ∧
      (tokenStream blake2b convId vocabLo vocabHi).get index < vocabHi := by
  have span : 0 < vocabHi - vocabLo := by omega
  generalize token : (tokenStream blake2b convId vocabLo vocabHi).get index =
    id
  obtain ⟨state, rfl⟩ : ∃ state : Nat,
      vocabLo + Int.fmod (state >>> 33 : Nat) (vocabHi - vocabLo) = id :=
    ⟨_, token⟩
  have nonneg := Int.fmod_nonneg_of_pos ((state >>> 33 : Nat) : Int) span
  have below := Int.fmod_lt_of_pos ((state >>> 33 : Nat) : Int) span
  omega

/-- The prompt of a turn is the beginning of the stream. -/
theorem nestedPromptIds_eq (range : vocabLo < vocabHi) (n : Int) :
    nestedPromptIds blake2b convId n vocabLo vocabHi =
      .ok ((tokenStream blake2b convId vocabLo vocabHi).take
        (max 1 n).toNat) := by
  have span : vocabHi - vocabLo ≠ 0 := by omega
  unfold nestedPromptIds
  dsimp only
  rw [appendLoop_of_emits]
  · rfl
  · intro state
    unfold tokenId
    rw [if_neg span]

end LlmDRl.Replay
