import ThreeAddress.Proofs.SourceFiles

/-!
The order of paths.  Names are compared by their code points, which comes to
the same as by the bytes that encode them: the first byte of a code point tells
how many follow, and those that follow hold its digits, the highest first.
-/

namespace ThreeAddress

namespace Utf8

/-- How many bytes follow the first in the encoding of a code point. -/
def width (code : Nat) : Nat :=
  if code ≤ 127 then 0 else if code ≤ 2047 then 1
  else if code ≤ 65535 then 2 else 3

/-- What the first byte says besides its digit. -/
def mark : (width : Nat) → Nat
  | 0 => 0
  | 1 => 192
  | 2 => 224
  | _ => 240

/-- The bytes after the first: the lowest digits to the base of 64. -/
def digits : (width code : Nat) → List UInt8
  | 0, _ => []
  | width + 1, code =>
      UInt8.ofNat (code / 64 ^ width % 64 + 128) :: digits width code

def lead (code : Nat) : Nat :=
  mark (width code) + code / 64 ^ width code

theorem toNat_lt (character : Char) : character.toNat < 0x110000 := by
  rcases character.valid with hlow | ⟨_, hhigh⟩
  · exact Nat.lt_trans hlow (by decide)
  · exact hhigh

theorem encode_eq (character : Char) :
    String.utf8EncodeChar character =
      UInt8.ofNat (lead character.toNat) ::
        digits (width character.toNat) character.toNat := by
  have hbound := toNat_lt character
  have hcode : character.val.toNat = character.toNat := rfl
  simp only [String.utf8EncodeChar, lead, width, hcode]
  generalize character.toNat = code at hbound
  split
  · simp [mark, digits]
  · split
    · have hlead : code / 64 % 32 + 192 = 192 + code / 64 := by omega
      simp only [mark, digits, Nat.pow_one, Nat.pow_zero, Nat.div_one, hlead]
    · split
      · have hlead : code / 4096 % 16 + 224 = 224 + code / 4096 := by omega
        simp only [mark, digits, Nat.reducePow, Nat.div_one, hlead]
      · have hlead : code / 262144 % 8 + 240 = 240 + code / 262144 := by omega
        simp only [mark, digits, Nat.reducePow, Nat.div_one, hlead]

theorem ofNat_lt_ofNat {low high : Nat} (hless : low < high)
    (hhigh : high < 256) : UInt8.ofNat low < UInt8.ofNat high :=
  (UInt8.ofNat_lt_iff_lt (Nat.lt_trans hless hhigh) hhigh).mpr hless

/-- Of two numbers with the same higher digits the smaller is the first by its
lower ones. -/
theorem digits_append_lt {width low high : Nat} (hless : low < high)
    (hhigher : low / 64 ^ width = high / 64 ^ width)
    (after others : List UInt8) :
    digits width low ++ after < digits width high ++ others := by
  induction width with
  | zero =>
      rw [Nat.pow_zero, Nat.div_one, Nat.div_one] at hhigher
      exact absurd hhigher (Nat.ne_of_lt hless)
  | succ width ih =>
      rw [Nat.pow_succ, ← Nat.div_div_eq_div_mul, ← Nat.div_div_eq_div_mul]
        at hhigher
      rw [digits, digits, List.cons_append, List.cons_append,
        List.cons_lt_cons_iff]
      have hle : low / 64 ^ width ≤ high / 64 ^ width :=
        Nat.div_le_div_right (Nat.le_of_lt hless)
      -- the first digit decides, unless it is the same in both
      rcases Nat.lt_or_eq_of_le hle with hdigit | hdigit
      · left
        exact ofNat_lt_ofNat (by omega) (by omega)
      · right
        exact ⟨by rw [hdigit], ih hdigit⟩

theorem width_cases (code : Nat) :
    width code = 0 ∧ code < 128 ∨ width code = 1 ∧ 128 ≤ code ∧ code < 2048 ∨
    width code = 2 ∧ 2048 ≤ code ∧ code < 65536 ∨
    width code = 3 ∧ 65536 ≤ code := by
  rw [width]
  split
  · omega
  · split
    · omega
    · split <;> omega

theorem lead_lt {code : Nat} (hcode : code < 0x110000) : lead code < 256 := by
  rw [lead]
  rcases width_cases code with ⟨hwidth, _⟩ | ⟨hwidth, _, _⟩ | ⟨hwidth, _, _⟩ |
    ⟨hwidth, _⟩ <;>
    simp only [hwidth, mark] <;> omega

/-- The first byte tells how many follow, which are more for higher codes. -/
theorem lead_lt_lead {low high : Nat} (hless : low < high)
    (hwidth : width low ≠ width high) : lead low < lead high := by
  rw [lead, lead]
  rcases width_cases low with ⟨hlow, _⟩ | ⟨hlow, _, _⟩ | ⟨hlow, _, _⟩ |
      ⟨hlow, _⟩ <;>
    rcases width_cases high with ⟨hhigh, _⟩ | ⟨hhigh, _, _⟩ | ⟨hhigh, _, _⟩ |
      ⟨hhigh, _⟩ <;>
    simp only [hlow, hhigh, mark, ne_eq, not_true] at hwidth ⊢ <;> omega

/-- Lower codes have lower encodings, whatever follows them. -/
theorem encode_append_lt {first second : Char}
    (hless : first.toNat < second.toNat) (after others : List UInt8) :
    String.utf8EncodeChar first ++ after <
      String.utf8EncodeChar second ++ others := by
  have hbyte := lead_lt (toNat_lt second)
  rw [encode_eq, encode_eq, List.cons_append, List.cons_append,
    List.cons_lt_cons_iff]
  by_cases hwidth : width first.toNat = width second.toNat
  · have hle : first.toNat / 64 ^ width first.toNat ≤
        second.toNat / 64 ^ width first.toNat :=
      Nat.div_le_div_right (Nat.le_of_lt hless)
    rcases Nat.lt_or_eq_of_le hle with hlead | hlead
    · left
      apply ofNat_lt_ofNat _ hbyte
      rw [lead, lead, ← hwidth]
      exact Nat.add_lt_add_left hlead _
    · right
      rw [lead, lead, ← hwidth, hlead]
      exact ⟨rfl, digits_append_lt hless hlead after others⟩
  · left
    exact ofNat_lt_ofNat (lead_lt_lead hless hwidth) hbyte

/-- Texts are ordered as their bytes are. -/
theorem flatMap_encode_lt {first second : List Char}
    (hbefore : List.Lex (fun left right : Char => left.toNat < right.toNat)
      first second) :
    first.flatMap String.utf8EncodeChar <
      second.flatMap String.utf8EncodeChar := by
  induction hbefore with
  | nil =>
      rw [List.flatMap_cons, encode_eq]
      exact List.Lex.nil
  | cons hrest ih =>
      rw [List.flatMap_cons, List.flatMap_cons]
      exact List.append_left_lt ih
  | rel hless =>
      rw [List.flatMap_cons, List.flatMap_cons]
      exact encode_append_lt hless _ _

end Utf8

namespace SourceFile

/-- What paths are ordered by: the bytes of their names, name by name. -/
def sortKey (path : List String) : List (List UInt8) :=
  path.map fun name => name.toUTF8.data.toList

theorem bytes_lt_of_nameBefore {first second : String}
    (hbefore : nameBefore first second = true) :
    first.toUTF8.data.toList < second.toUTF8.data.toList := by
  have hbytes : ∀ text : String,
      text.toUTF8.data.toList = text.toList.flatMap String.utf8EncodeChar := by
    intro text
    rw [String.toUTF8_eq_toByteArray, ← String.utf8Encode_toList,
      List.utf8Encode, List.data_toByteArray]
  simp only [nameBefore, List.lex_eq_true_iff_lex, decide_eq_true_eq]
    at hbefore
  rw [hbytes, hbytes]
  exact Utf8.flatMap_encode_lt hbefore

theorem sortKey_lt_of_pathBefore {first second : List String}
    (hbefore : pathBefore first second = true) :
    sortKey first < sortKey second := by
  rw [pathBefore, List.lex_eq_true_iff_lex] at hbefore
  rw [sortKey, sortKey]
  induction hbefore with
  | nil => exact List.Lex.nil
  | cons hrest ih => exact List.Lex.cons ih
  | rel hless => exact List.Lex.rel (bytes_lt_of_nameBefore hless)

end SourceFile

end ThreeAddress
