import Hueplusplus.Foundation.Hex
import Hueplusplus.Json

/-!
# The bytes of a client key

`hexToBytes` makes the bytes of the hexadecimal client key, which are the key of the encrypted
connection. Two digits are read as a `long` that becomes a `char`, so a byte above 127 is
negative. The loop counts with an `unsigned int`, which returns to zero before it reaches the
length of a text with `2 ^ 32` characters: such a text is never decoded, and every shorter one
is decoded exactly.
-/

namespace Hueplusplus

open Text

namespace EntertainmentMode

/-- The loop of `hexToBytes`, and its result if it ends within these rounds. -/
def hexLoop (hex : Text) : ℕ → UInt32 → List Int8 → Option (Except Exception (List Int8))
  | 0, _, _ => none
  | rounds + 1, i, bytes =>
    if i.toNat < hex.length then
      match hex.substr i.toNat 2 with
      | .error e => some (.error e)
      | .ok byteString =>
        let byte := Int8.ofInt (Hex.strtol byteString.cStr)
        hexLoop hex rounds (i + 2) (bytes ++ [byte])
    else some (.ok bytes)

def hexToBytes (hex : Text) (rounds : ℕ) : Option (Except Exception (List Int8)) :=
  hexLoop hex rounds 0 []

/-- `hexToBytes` returns these bytes. -/
def Decodes (hex : Text) (bytes : List Int8) : Prop :=
  ∃ rounds, hexToBytes hex rounds = some (.ok bytes)

/-- The bytes as they are in memory. -/
def rawBytes (bytes : List Int8) : List UInt8 := bytes.map Int8.toUInt8

section Loop

variable {hex : Text}

/-- One round reads two digits. -/
theorem hexLoop_succ {i : UInt32} {high low : Char} {byte : UInt8} {rest : Text}
    (ahead : hex.drop i.toNat = high :: low :: rest)
    (first : Hex.value? high = some (byte.toNat / 16))
    (second : Hex.value? low = some (byte.toNat % 16)) (rounds : ℕ) (bytes : List Int8) :
    hexLoop hex (rounds + 1) i bytes = hexLoop hex rounds (i + 2) (bytes ++ [byte.toInt8]) := by
  have inside : i.toNat < hex.length := by
    have length := congrArg List.length ahead
    rw [List.length_drop, List.length_cons] at length
    omega
  have cut : hex.substr i.toNat 2 = (.ok [high, low] : Except Exception Text) :=
    substr_of_drop inside.le ahead rfl
  have number : Int8.ofInt (Hex.strtol [high, low]) = byte.toInt8 := by
    rw [Hex.strtol_pair first second, Nat.div_add_mod, Int8.ofInt_eq_ofNat]
    exact Int8.toBitVec.inj (BitVec.ofNat_toNat 8 byte.toBitVec)
  rw [hexLoop, if_pos inside, cut]
  simp only [Hex.cStr_pair first second, number]

/-- The counter does not wrap within a text of this length, so what is ahead of it is decoded. -/
theorem hexLoop_of_encodes {bytes : List UInt8} {rest : Text} (encoded : Hex.Encodes bytes rest)
    (short : hex.length < 2 ^ 32) {i : UInt32} (ahead : hex.drop i.toNat = rest)
    (done : List Int8) :
    hexLoop hex (bytes.length + 1) i done = some (.ok (done ++ bytes.map UInt8.toInt8)) := by
  induction encoded generalizing i done with
  | nil =>
      have outside : ¬ i.toNat < hex.length := Nat.not_lt.mpr (List.drop_eq_nil_iff.mp ahead)
      rw [hexLoop, if_neg outside, List.map_nil, List.append_nil]
  | cons first second _ ih =>
      have next : (i + 2).toNat = i.toNat + 2 := by
        have length := congrArg List.length ahead
        have two : (2 : UInt32).toNat = 2 := rfl
        simp only [List.length_drop, List.length_cons] at length
        rw [UInt32.toNat_add, two]
        omega
      rw [List.length_cons, hexLoop_succ ahead first second, ih, List.map_cons,
        List.append_assoc, List.singleton_append]
      rw [next, ← List.drop_drop, ahead]
      rfl

/-- A counter of 32 bits never reaches the end of such a text. -/
theorem hexLoop_of_long (long : 2 ^ 32 ≤ hex.length) (rounds : ℕ) (i : UInt32)
    (bytes : List Int8) : hexLoop hex rounds i bytes = none := by
  induction rounds generalizing i bytes with
  | zero => rfl
  | succ rounds ih =>
      have inside : i.toNat < hex.length := i.toNat_lt.trans_le long
      simp only [hexLoop, if_pos inside, substr, suffix, if_neg (Nat.not_lt.mpr inside.le),
        Except.ok_bind, Except.pure_eq_ok, ih]

end Loop

@[simp] theorem toInt8_rawBytes (bytes : List Int8) :
    (rawBytes bytes).map UInt8.toInt8 = bytes := by
  rw [rawBytes, List.map_map]
  exact List.map_id _

@[simp] theorem rawBytes_toInt8 (bytes : List UInt8) :
    rawBytes (bytes.map UInt8.toInt8) = bytes := by
  rw [rawBytes, List.map_map]
  exact List.map_id _

theorem not_decodes_of_long {hex : Text} (long : 2 ^ 32 ≤ hex.length) (bytes : List Int8) :
    ¬ Decodes hex bytes := by
  rintro ⟨rounds, returned⟩
  rw [hexToBytes, hexLoop_of_long long] at returned
  cases returned

theorem decodes_of_encodes {bytes : List Int8} {hex : Text}
    (encoded : Hex.Encodes (rawBytes bytes) hex) (short : hex.length < 2 ^ 32) :
    Decodes hex bytes := by
  have returned := @hexLoop_of_encodes hex _ _ encoded short 0 List.drop_zero []
  rw [toInt8_rawBytes] at returned
  exact ⟨_, returned⟩

theorem lt_of_decodes {bytes : List Int8} {hex : Text} (decoded : Decodes hex bytes) :
    hex.length < 2 ^ 32 := by
  by_contra long
  exact not_decodes_of_long (Nat.not_lt.mp long) bytes decoded

/-- An encoded byte string is decoded to itself, and a text of digits to bytes that are encoded
as it is up to letter case, exactly if the text has less than `2 ^ 32` characters. -/
theorem decoded_exactly_iff (bytes : List Int8) (hex : Text) :
    (Hex.Encodes (rawBytes bytes) hex → (Decodes hex bytes ↔ hex.length < 2 ^ 32)) ∧
      (Even hex.length → (∀ c ∈ hex, (Hex.value? c).isSome) →
        ((∃ decoded, Decodes hex decoded ∧
          (Hex.encode (rawBytes decoded)).map Char.toLower = hex.map Char.toLower) ↔
            hex.length < 2 ^ 32)) := by
  constructor
  · intro encoded
    exact ⟨lt_of_decodes, decodes_of_encodes encoded⟩
  · intro even digits
    constructor
    · rintro ⟨decoded, returned, _⟩
      exact lt_of_decodes returned
    · intro short
      obtain ⟨raw, encoded⟩ := Hex.exists_encodes hex even digits
      rw [← rawBytes_toInt8 raw] at encoded
      refine ⟨raw.map UInt8.toInt8, decodes_of_encodes encoded short, ?_⟩
      rw [Hex.toLower_encode, encoded.toLower]

theorem decoded_exactly_iff_aBff :
    (Decodes ['a', 'B', 'f', 'f'] [-85, -1] ↔ ['a', 'B', 'f', 'f'].length < 2 ^ 32) ∧
      ((∃ decoded, Decodes ['a', 'B', 'f', 'f'] decoded ∧
        (Hex.encode (rawBytes decoded)).map Char.toLower =
          ['a', 'B', 'f', 'f'].map Char.toLower) ↔ ['a', 'B', 'f', 'f'].length < 2 ^ 32) := by
  have both := decoded_exactly_iff [-85, -1] ['a', 'B', 'f', 'f']
  exact ⟨both.1 (.cons rfl rfl (.cons rfl rfl .nil)),
    both.2 ⟨2, rfl⟩ (List.all_eq_true.mp rfl)⟩

/-- The loop never ends for the digits of `2 ^ 31` bytes. -/
theorem long_key_not_decoded :
    ¬ ((∀ bytes hex, Hex.Encodes (rawBytes bytes) hex → Decodes hex bytes) ∧
      ∀ hex : Text, Even hex.length → (∀ c ∈ hex, (Hex.value? c).isSome) →
        ∃ bytes, Decodes hex bytes ∧
          (Hex.encode (rawBytes bytes)).map Char.toLower = hex.map Char.toLower) := by
  rintro ⟨claim, -⟩
  have long : 2 ^ 32 ≤ (Hex.encode (rawBytes (List.replicate (2 ^ 31) 0))).length := by
    rw [Hex.length_encode, rawBytes, List.length_map, List.length_replicate]
    omega
  exact not_decodes_of_long long _ (claim _ _ (Hex.encodes_encode _))

end EntertainmentMode

end Hueplusplus
