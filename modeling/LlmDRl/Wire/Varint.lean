import Mathlib.Data.Nat.Bits

/-!
# Varints

`_varint` and `_decode_varint` of `epp_grpc_client.py`.  Bytes are a list;
`data[pos]` past the end is the only error of the decoder.
-/

namespace LlmDRl.Wire

abbrev Bytes := List UInt8

/-- The exception that reading past the end of the bytes raises. -/
inductive WireError where
  | indexError
  deriving DecidableEq, Repr

/-- `_varint(n)` -/
def varint (n : Nat) : Bytes :=
  if n > 0x7F then
    UInt8.ofNat ((n &&& 0x7F) ||| 0x80) :: varint (n >>> 7)
  else
    [UInt8.ofNat (n &&& 0x7F)]
termination_by n
decreasing_by
  rw [Nat.shiftRight_eq_div_pow]
  omega

/-- The loop of `_decode_varint` over the bytes from `data[pos]` on. -/
def decodeVarintLoop :
    Bytes → (pos result shift : Nat) → Except WireError (Nat × Nat)
  | [], _, _, _ => .error .indexError
  | b :: rest, pos, result, shift =>
      if b.toNat &&& 0x80 = 0 then
        .ok (result ||| ((b.toNat &&& 0x7F) <<< shift), pos + 1)
      else
        decodeVarintLoop rest (pos + 1)
          (result ||| ((b.toNat &&& 0x7F) <<< shift)) (shift + 7)

/-- `_decode_varint(data, pos)` -/
def decodeVarint (data : Bytes) (pos : Nat) : Except WireError (Nat × Nat) :=
  decodeVarintLoop (data.drop pos) pos 0 0

/-! ## Seven bits at a time -/

theorem and_seven_bits (n : Nat) : n &&& 0x7F = n % 128 :=
  Nat.and_two_pow_sub_one_eq_mod n 7

/-- A byte of seven bits and a flag. -/
theorem toNat_group (n flag : Nat) (isFlag : flag = 0 ∨ flag = 0x80) :
    (UInt8.ofNat ((n &&& 0x7F) ||| flag)).toNat = (n &&& 0x7F) ||| flag := by
  have small : (n &&& 0x7F) ||| flag < 2 ^ 8 := by
    apply Nat.or_lt_two_pow
    · rw [and_seven_bits]
      omega
    · rcases isFlag with rfl | rfl <;> decide
  rw [UInt8.toNat_ofNat', Nat.mod_eq_of_lt small]

theorem group_low (n flag : Nat) (isFlag : flag = 0 ∨ flag = 0x80) :
    ((n &&& 0x7F) ||| flag) &&& 0x7F = n &&& 0x7F := by
  rw [Nat.and_or_distrib_right, Nat.and_assoc, Nat.and_self]
  rcases isFlag with rfl | rfl <;> simp

theorem group_flag (n flag : Nat) (isFlag : flag = 0 ∨ flag = 0x80) :
    ((n &&& 0x7F) ||| flag) &&& 0x80 = flag := by
  rw [Nat.and_or_distrib_right, Nat.and_assoc]
  rcases isFlag with rfl | rfl <;> simp

theorem shiftLeft_split (n shift : Nat) :
    ((n &&& 0x7F) <<< shift) ||| ((n >>> 7) <<< (shift + 7)) =
      n <<< shift := by
  have parts : (n &&& 0x7F) ||| ((n >>> 7) <<< 7) = n := by
    rw [and_seven_bits, Nat.or_comm, Nat.shiftRight_eq_div_pow,
      ← Nat.shiftLeft_add_eq_or_of_lt (Nat.mod_lt n (by decide : 0 < 2 ^ 7)),
      Nat.shiftLeft_eq]
    omega
  calc
    ((n &&& 0x7F) <<< shift) ||| ((n >>> 7) <<< (shift + 7)) =
        ((n &&& 0x7F) ||| ((n >>> 7) <<< 7)) <<< shift := by
      rw [Nat.shiftLeft_or_distrib, ← Nat.shiftLeft_add, Nat.add_comm 7 shift]
    _ = n <<< shift := by rw [parts]

/-! ## Reading back what was written -/

theorem varint_ne_nil (n : Nat) : varint n ≠ [] := by
  rw [varint]
  split <;> simp

theorem decodeVarintLoop_varint
    (n : Nat) (suffix : Bytes) (pos result shift : Nat) :
    decodeVarintLoop (varint n ++ suffix) pos result shift =
      .ok (result ||| (n <<< shift), pos + (varint n).length) := by
  induction n using varint.induct generalizing pos result shift with
  | case1 n large inductionHypothesis =>
      have flag := group_flag n 0x80 (Or.inr rfl)
      have low := group_low n 0x80 (Or.inr rfl)
      rw [varint, if_pos large, List.cons_append, decodeVarintLoop,
        toNat_group n 0x80 (Or.inr rfl), flag, low,
        if_neg (by decide), inductionHypothesis, Nat.or_assoc,
        shiftLeft_split, List.length_cons]
      congr 2
      omega
  | case2 n small =>
      have flag := group_flag n 0 (Or.inl rfl)
      have low := group_low n 0 (Or.inl rfl)
      have whole : n &&& 0x7F = n := by
        rw [and_seven_bits]
        omega
      have byteEq := toNat_group n 0 (Or.inl rfl)
      rw [Nat.or_zero] at flag low byteEq
      rw [varint, if_neg small, List.singleton_append, decodeVarintLoop,
        byteEq, flag, if_pos rfl, low, whole]
      rfl

/-- A varint is read where it starts, and the reader stops right after it. -/
theorem decodeVarint_of_drop
    {data suffix : Bytes} {pos n : Nat}
    (start : data.drop pos = varint n ++ suffix) :
    decodeVarint data pos = .ok (n, pos + (varint n).length) := by
  rw [decodeVarint, start, decodeVarintLoop_varint, Nat.zero_or,
    Nat.shiftLeft_zero]

theorem drop_after
    {data first rest : Bytes} {pos : Nat}
    (start : data.drop pos = first ++ rest) :
    data.drop (pos + first.length) = rest := by
  rw [← List.drop_drop, start, List.drop_left]

/-- The reader moves on. -/
theorem lt_of_decodeVarintLoop
    {data : Bytes} {pos result shift value next : Nat}
    (read : decodeVarintLoop data pos result shift = .ok (value, next)) :
    pos < next := by
  induction data generalizing pos result shift with
  | nil =>
      cases read
  | cons b rest inductionHypothesis =>
      rw [decodeVarintLoop] at read
      split at read
      · cases read
        exact Nat.lt_succ_self pos
      · exact Nat.lt_of_succ_lt (inductionHypothesis read)

theorem lt_of_decodeVarint
    {data : Bytes} {pos value next : Nat}
    (read : decodeVarint data pos = .ok (value, next)) : pos < next :=
  lt_of_decodeVarintLoop read

end LlmDRl.Wire
