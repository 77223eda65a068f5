/-
# Vmb.Lib.Utf8 -- C strings and lossy decoding of byte strings

Byte strings on their way to a C API. A `CString` carries the fact that it has no interior NUL.
`lossy` is the standard repair of an arbitrary byte string to UTF-8: the bytes of a well-formed
sequence are kept, and every maximal ill-formed piece becomes U+FFFD. The repair neither introduces
nor removes a NUL byte (`mem_lossy_zero`), and leaves the bytes of a string alone (`lossy_bytes`).
-/
import Mathlib.Data.UInt
import Mathlib.Data.List.Basic

namespace Vmb.Lib

/-- The UTF-8 bytes of a string. -/
def bytes (s : String) : List UInt8 := s.toUTF8.data.toList

/-- A NUL-terminated string, without its terminator. -/
abbrev CString := {bs : List UInt8 // (0 : UInt8) ∉ bs}

/-- `CString::new`: refused when the bytes have an interior NUL. -/
def CString.new (bs : List UInt8) : Option CString :=
  if h : (0 : UInt8) ∉ bs then some ⟨bs, h⟩ else none

theorem CString.new_eq_some {bs : List UInt8} (h : (0 : UInt8) ∉ bs) :
    CString.new bs = some ⟨bs, h⟩ := dif_pos h

theorem CString.new_eq_none {bs : List UInt8} : CString.new bs = none ↔ (0 : UInt8) ∈ bs := by
  unfold CString.new
  split <;> simp_all

/-! ## Lossy decoding -/

/-- The bytes of U+FFFD. -/
def replacement : List UInt8 := [0xEF, 0xBF, 0xBD]

/-- The length of the sequence a byte starts, 0 when it starts none. -/
def charWidth (b : UInt8) : Nat :=
  if b < 0x80 then 1
  else if b < 0xC2 then 0
  else if b < 0xE0 then 2
  else if b < 0xF0 then 3
  else if b < 0xF5 then 4
  else 0

/-- A continuation byte. -/
def isContinuation (b : UInt8) : Bool := 0x80 ≤ b && b ≤ 0xBF

/-- The second byte a three-byte sequence may have. -/
def isSecondOfThree (b c : UInt8) : Bool :=
  if b = 0xE0 then 0xA0 ≤ c && c ≤ 0xBF
  else if b = 0xED then 0x80 ≤ c && c ≤ 0x9F
  else isContinuation c

/-- The second byte a four-byte sequence may have. -/
def isSecondOfFour (b c : UInt8) : Bool :=
  if b = 0xF0 then 0x90 ≤ c && c ≤ 0xBF
  else if b = 0xF4 then 0x80 ≤ c && c ≤ 0x8F
  else isContinuation c

/-- `String::from_utf8_lossy`: an ill-formed piece ends before the first byte that cannot continue
the sequence. -/
def lossy : List UInt8 → List UInt8
  | [] => []
  | b :: rest =>
    match charWidth b with
    | 1 => b :: lossy rest
    | 2 =>
      match rest with
      | [] => replacement
      | c :: rest₁ =>
        if isContinuation c then b :: c :: lossy rest₁ else replacement ++ lossy (c :: rest₁)
    | 3 =>
      match rest with
      | [] => replacement
      | c :: rest₁ =>
        if isSecondOfThree b c then
          match rest₁ with
          | [] => replacement
          | d :: rest₂ =>
            if isContinuation d then b :: c :: d :: lossy rest₂
            else replacement ++ lossy (d :: rest₂)
        else replacement ++ lossy (c :: rest₁)
    | 4 =>
      match rest with
      | [] => replacement
      | c :: rest₁ =>
        if isSecondOfFour b c then
          match rest₁ with
          | [] => replacement
          | d :: rest₂ =>
            if isContinuation d then
              match rest₂ with
              | [] => replacement
              | e :: rest₃ =>
                if isContinuation e then b :: c :: d :: e :: lossy rest₃
                else replacement ++ lossy (e :: rest₃)
            else replacement ++ lossy (d :: rest₂)
        else replacement ++ lossy (c :: rest₁)
    | _ => replacement ++ lossy rest

example : lossy [0x61, 0xFF, 0xE2, 0x82, 0x62] =
    [0x61] ++ replacement ++ replacement ++ [0x62] := by decide

theorem zero_notMem_replacement : (0 : UInt8) ∉ replacement := by decide

theorem charWidth_zero : charWidth 0 = 1 := rfl

theorem ne_zero_of_isContinuation {c : UInt8} (h : isContinuation c = true) : c ≠ 0 := by
  rintro rfl
  exact absurd h (by decide)

theorem ne_zero_of_isSecondOfThree {b c : UInt8} (h : isSecondOfThree b c = true) : c ≠ 0 := by
  rintro rfl
  unfold isSecondOfThree at h
  split_ifs at h <;> exact absurd h (by decide)

theorem ne_zero_of_isSecondOfFour {b c : UInt8} (h : isSecondOfFour b c = true) : c ≠ 0 := by
  rintro rfl
  unfold isSecondOfFour at h
  split_ifs at h <;> exact absurd h (by decide)

/-- The repair keeps exactly the NUL bytes: a NUL is a sequence of its own and ends every other. -/
theorem mem_lossy_zero (bs : List UInt8) : (0 : UInt8) ∈ lossy bs ↔ (0 : UInt8) ∈ bs := by
  fun_induction lossy bs with
  | case1 => rfl
  | case2 b rest _ ih => simp [ih]
  | _ =>
      grind [zero_notMem_replacement, charWidth_zero, ne_zero_of_isContinuation,
        ne_zero_of_isSecondOfThree, ne_zero_of_isSecondOfFour]

/-! ## Well-formed byte strings -/

theorem toNat_ofNat_of_lt {n : Nat} (h : n < 256) : (UInt8.ofNat n).toNat = n := by
  rw [UInt8.toNat_ofNat']
  exact Nat.mod_eq_of_lt h

/-- The width of a first byte, by its value. -/
theorem charWidth_ofNat {n : Nat} (h : n < 256) : charWidth (UInt8.ofNat n) =
    if n < 0x80 then 1 else if n < 0xC2 then 0 else if n < 0xE0 then 2
    else if n < 0xF0 then 3 else if n < 0xF5 then 4 else 0 := by
  simp only [charWidth, UInt8.lt_iff_toNat_lt, toNat_ofNat_of_lt h]
  rfl

/-- Bytes between two bounds, by their value. -/
theorem between_ofNat {n : Nat} {lo hi : UInt8} (h : n < 256) (hlo : lo.toNat ≤ n)
    (hhi : n ≤ hi.toNat) : (lo ≤ UInt8.ofNat n && UInt8.ofNat n ≤ hi) = true := by
  simp only [Bool.and_eq_true, decide_eq_true_eq, UInt8.le_iff_toNat_le, toNat_ofNat_of_lt h]
  exact ⟨hlo, hhi⟩

theorem isContinuation_ofNat {n : Nat} (h : n < 64) :
    isContinuation (UInt8.ofNat (n + 0x80)) = true :=
  between_ofNat (by omega) (by simp) (by simp; omega)

theorem ofNat_eq_iff {n : Nat} (h : n < 256) (b : UInt8) : UInt8.ofNat n = b ↔ n = b.toNat := by
  rw [← UInt8.toNat_inj, toNat_ofNat_of_lt h]

/-- The first two bytes of a three-byte character: neither overlong nor a surrogate. -/
theorem isSecondOfThree_ofNat {v : Nat} (hlo : 0x800 ≤ v) (hhi : v ≤ 0xFFFF)
    (hchar : v < 0xD800 ∨ 0xDFFF < v) :
    isSecondOfThree (UInt8.ofNat (v / 4096 % 0x10 + 0xe0)) (UInt8.ofNat (v / 64 % 0x40 + 0x80)) =
      true := by
  unfold isSecondOfThree
  simp only [ofNat_eq_iff (show v / 4096 % 0x10 + 0xe0 < 256 by omega)]
  split_ifs with h₁ h₂
  · refine between_ofNat (by omega) ?_ ?_
    · simp at h₁ ⊢
      omega
    · simp
      omega
  · refine between_ofNat (by omega) ?_ ?_
    · simp
    · simp at h₂ ⊢
      omega
  · exact isContinuation_ofNat (by omega)

/-- The first two bytes of a four-byte character: neither overlong nor out of range. -/
theorem isSecondOfFour_ofNat {v : Nat} (hlo : 0xFFFF < v) (hhi : v < 0x110000) :
    isSecondOfFour (UInt8.ofNat (v / 262144 % 0x08 + 0xf0)) (UInt8.ofNat (v / 4096 % 0x40 + 0x80)) =
      true := by
  unfold isSecondOfFour
  simp only [ofNat_eq_iff (show v / 262144 % 0x08 + 0xf0 < 256 by omega)]
  split_ifs with h₁ h₂
  · refine between_ofNat (by omega) ?_ ?_
    · simp at h₁ ⊢
      omega
    · simp
      omega
  · refine between_ofNat (by omega) ?_ ?_
    · simp
    · simp at h₂ ⊢
      omega
  · exact isContinuation_ofNat (by omega)

/-- The repair leaves a character alone. -/
theorem lossy_utf8EncodeChar (c : Char) (rest : List UInt8) :
    lossy (String.utf8EncodeChar c ++ rest) = String.utf8EncodeChar c ++ lossy rest := by
  have hchar : c.val.toNat < 0xD800 ∨ 0xDFFF < c.val.toNat ∧ c.val.toNat < 0x110000 := c.valid
  unfold String.utf8EncodeChar
  generalize c.val.toNat = v at hchar
  simp only
  split_ifs with h₁ h₂ h₃
  · have hw : charWidth (UInt8.ofNat v) = 1 := by
      rw [charWidth_ofNat (by omega), if_pos (by omega)]
    simp only [List.cons_append, List.nil_append]
    conv_lhs => rw [lossy.eq_def]
    simp only [hw]
  · have hw : charWidth (UInt8.ofNat (v / 64 % 0x20 + 0xc0)) = 2 := by
      rw [charWidth_ofNat (by omega), if_neg (by omega), if_neg (by omega), if_pos (by omega)]
    simp only [List.cons_append, List.nil_append]
    conv_lhs => rw [lossy.eq_def]
    simp only [hw]
    exact if_pos (isContinuation_ofNat (by omega))
  · have hw : charWidth (UInt8.ofNat (v / 4096 % 0x10 + 0xe0)) = 3 := by
      rw [charWidth_ofNat (by omega), if_neg (by omega), if_neg (by omega), if_neg (by omega),
        if_pos (by omega)]
    simp only [List.cons_append, List.nil_append]
    conv_lhs => rw [lossy.eq_def]
    simp only [hw]
    refine (if_pos (isSecondOfThree_ofNat (by omega) h₃ (by omega))).trans ?_
    exact if_pos (isContinuation_ofNat (by omega))
  · have hw : charWidth (UInt8.ofNat (v / 262144 % 0x08 + 0xf0)) = 4 := by
      rw [charWidth_ofNat (by omega), if_neg (by omega), if_neg (by omega), if_neg (by omega),
        if_neg (by omega), if_pos (by omega)]
    simp only [List.cons_append, List.nil_append]
    conv_lhs => rw [lossy.eq_def]
    simp only [hw]
    refine (if_pos (isSecondOfFour_ofNat (by omega) (by omega))).trans ?_
    refine (if_pos (isContinuation_ofNat (by omega))).trans ?_
    exact if_pos (isContinuation_ofNat (by omega))

theorem bytes_eq_flatMap (s : String) : bytes s = s.toList.flatMap String.utf8EncodeChar := by
  show s.toByteArray.data.toList = _
  rw [← String.utf8Encode_toList]
  exact List.toList_data_toByteArray

/-- **The repair leaves the bytes of a string alone.** -/
theorem lossy_bytes (s : String) : lossy (bytes s) = bytes s := by
  rw [bytes_eq_flatMap]
  induction s.toList with
  | nil => rw [List.flatMap_nil, lossy]
  | cons c cs ih => rw [List.flatMap_cons, lossy_utf8EncodeChar, ih]

end Vmb.Lib
