import ScriptValue.Text.Utf8
import Mathlib.Data.List.Basic

namespace ScriptValue.Utf8

def IsAscii (c : Char) : Prop := c.toNat < 128

instance (c : Char) : Decidable (IsAscii c) := inferInstanceAs (Decidable (_ < _))

def byte (c : Char) : UInt8 := .ofNat c.toNat

theorem encode_cons (c : Char) (t : Text) :
    encode (c :: t) = String.utf8EncodeChar c ++ encode t := List.flatMap_cons

theorem encode_append (s t : Text) : encode (s ++ t) = encode s ++ encode t := List.flatMap_append

theorem encode_eq_nil_iff {t : Text} : encode t = [] ↔ t = [] := by
  cases t with
  | nil => simp [encode]
  | cons c t => simp [encode_cons]

theorem utf8EncodeChar_of_isAscii {c : Char} (h : IsAscii c) :
    String.utf8EncodeChar c = [byte c] := by
  rw [String.utf8EncodeChar]
  exact if_pos (Nat.le_of_lt_succ h)

theorem toNat_byte {c : Char} (h : IsAscii c) : (byte c).toNat = c.toNat := by
  rw [byte, UInt8.toNat_ofNat']
  exact Nat.mod_eq_of_lt (Nat.lt_trans h (by decide))

theorem byte_injective {c d : Char} (hc : IsAscii c) (hd : IsAscii d) (h : byte c = byte d) :
    c = d := by
  have hnat : c.toNat = d.toNat := by rw [← toNat_byte hc, h, toNat_byte hd]
  rw [← Char.ofNat_toNat c, hnat, Char.ofNat_toNat]

theorem le_of_mem_utf8EncodeChar {c : Char} (hc : ¬ IsAscii c) {b : UInt8}
    (hb : b ∈ String.utf8EncodeChar c) : 128 ≤ b.toNat := by
  have hlt : ¬ c.val.toNat ≤ 127 := fun hle => hc (Nat.lt_succ_of_le hle)
  have hlarge (n : Nat) (h : 128 ≤ n % 256) : 128 ≤ (UInt8.ofNat n).toNat := by
    rwa [UInt8.toNat_ofNat']
  revert hb
  fun_cases String.utf8EncodeChar c
  case case1 hle => exact absurd hle hlt
  all_goals simp only [List.mem_cons, List.not_mem_nil, or_false]
  case case2 => rintro (rfl | rfl) <;> exact hlarge _ (by omega)
  case case3 => rintro (rfl | rfl | rfl) <;> exact hlarge _ (by omega)
  case case4 => rintro (rfl | rfl | rfl | rfl) <;> exact hlarge _ (by omega)

theorem eq_byte_iff {c d : Char} (hd : IsAscii d) {b : UInt8}
    (hb : b ∈ String.utf8EncodeChar c) : b = byte d ↔ c = d := by
  by_cases hc : IsAscii c
  · rw [utf8EncodeChar_of_isAscii hc, List.mem_singleton] at hb
    subst hb
    exact ⟨byte_injective hc hd, congrArg byte⟩
  · have hlarge := le_of_mem_utf8EncodeChar hc hb
    constructor
    · rintro rfl
      rw [toNat_byte hd] at hlarge
      exact absurd hd (Nat.not_lt.2 hlarge)
    · rintro rfl
      exact absurd hd hc

theorem encode_eq_map {t : Text} (h : ∀ c ∈ t, IsAscii c) : encode t = t.map byte := by
  induction t with
  | nil => rfl
  | cons c t ih =>
    rw [List.forall_mem_cons] at h
    rw [encode_cons, utf8EncodeChar_of_isAscii h.1, ih h.2, List.map_cons, List.singleton_append]

theorem take_encode (t : Text) (n : Nat) :
    (encode t).take (encode (t.take n)).length = encode (t.take n) := by
  conv => lhs; rw [← List.take_append_drop n t, encode_append]
  simp

theorem drop_encode (t : Text) (n : Nat) :
    (encode t).drop (encode (t.take n)).length = encode (t.drop n) := by
  conv => lhs; rw [← List.take_append_drop n t, encode_append]
  simp

end ScriptValue.Utf8
