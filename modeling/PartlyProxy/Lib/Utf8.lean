import Mathlib.Data.List.Basic

namespace Utf8

theorem toList_loop_eq (bytes : ByteArray) (i : Nat) (done : List UInt8) :
    ByteArray.toList.loop bytes i done = done.reverse ++ bytes.data.toList.drop i := by
  fun_induction ByteArray.toList.loop bytes i done with
  | case1 i done inside ih =>
    have here : i < bytes.data.toList.length := inside
    rw [ih, List.drop_eq_getElem_cons here, List.reverse_cons, List.append_assoc]
    simp [ByteArray.get!, inside]
  | case2 i done outside =>
    have beyond : bytes.data.toList.length ≤ i := Nat.le_of_not_lt outside
    rw [List.drop_eq_nil_of_le beyond, List.append_nil]

/-- The bytes of a text are those of its characters in turn. -/
theorem data_eq (text : String) : text.toByteArray.data.toList = text.toList.flatMap String.utf8EncodeChar := by
  conv_lhs => rw [← String.ofList_toList (s := text), String.toByteArray_ofList, List.utf8Encode]
  simp

theorem bytes_eq (text : String) : text.toUTF8.toList = text.toList.flatMap String.utf8EncodeChar := by
  have data : text.toUTF8.toList = text.toByteArray.data.toList := by
    rw [String.toUTF8_eq_toByteArray, ByteArray.toList, toList_loop_eq]
    rfl
  rw [data, data_eq]

/-- A byte that can only stand inside a sequence. -/
def Continuation (b : UInt8) : Prop := 0x80 ≤ b.toNat ∧ b.toNat ≤ 0xBF

/-- The well-formed sequences, with the value they stand for. The second byte rules
out what has a shorter form, the surrogates and what is too large. -/
inductive WellFormed : List UInt8 → Nat → Prop
  | one {b : UInt8} {v : Nat} : b.toNat ≤ 0x7F → v = b.toNat → WellFormed [b] v
  | two {b second : UInt8} {v : Nat} : 0xC2 ≤ b.toNat → b.toNat ≤ 0xDF → Continuation second →
      v = (b.toNat - 0xC0) * 64 + (second.toNat - 0x80) → WellFormed [b, second] v
  | three {b second third : UInt8} {v : Nat} : 0xE0 ≤ b.toNat → b.toNat ≤ 0xEF → Continuation second →
      (b.toNat = 0xE0 → 0xA0 ≤ second.toNat) → (b.toNat = 0xED → second.toNat ≤ 0x9F) → Continuation third →
      v = ((b.toNat - 0xE0) * 64 + (second.toNat - 0x80)) * 64 + (third.toNat - 0x80) →
      WellFormed [b, second, third] v
  | four {b second third fourth : UInt8} {v : Nat} : 0xF0 ≤ b.toNat → b.toNat ≤ 0xF4 → Continuation second →
      (b.toNat = 0xF0 → 0x90 ≤ second.toNat) → (b.toNat = 0xF4 → second.toNat ≤ 0x8F) → Continuation third →
      Continuation fourth →
      v = (((b.toNat - 0xF0) * 64 + (second.toNat - 0x80)) * 64 + (third.toNat - 0x80)) * 64 + (fourth.toNat - 0x80) →
      WellFormed [b, second, third, fourth] v

theorem WellFormed.split {bytes : List UInt8} {v : Nat} (wellFormed : WellFormed bytes v) :
    ∃ lead tail, bytes = lead :: tail ∧ ¬ Continuation lead ∧ ∀ b ∈ tail, Continuation b := by
  cases wellFormed with
  | one ascii => exact ⟨_, _, rfl, fun inside => by simp only [Continuation] at inside; omega, by simp⟩
  | two low high second =>
    exact ⟨_, _, rfl, fun inside => by simp only [Continuation] at inside; omega, by simpa using second⟩
  | three low high second _ _ third =>
    exact ⟨_, _, rfl, fun inside => by simp only [Continuation] at inside; omega, by simpa using ⟨second, third⟩⟩
  | four low high second _ _ third fourth =>
    exact ⟨_, _, rfl, fun inside => by simp only [Continuation] at inside; omega,
      by simpa using ⟨second, third, fourth⟩⟩

/-- What is not ASCII has no ASCII byte in its sequence. -/
theorem WellFormed.ascii_or_high {bytes : List UInt8} {v : Nat} (wellFormed : WellFormed bytes v) {b : UInt8}
    (member : b ∈ bytes) : b.toNat = v ∨ 128 ≤ b.toNat := by
  cases wellFormed with
  | one ascii value => exact Or.inl (by rw [List.mem_singleton.mp member, value])
  | two low high second =>
    obtain ⟨secondLow, _⟩ := second
    simp only [List.mem_cons, List.not_mem_nil, or_false] at member
    rcases member with rfl | rfl <;> omega
  | three low high second _ _ third =>
    obtain ⟨⟨secondLow, _⟩, thirdLow, _⟩ := And.intro second third
    simp only [List.mem_cons, List.not_mem_nil, or_false] at member
    rcases member with rfl | rfl | rfl <;> omega
  | four low high second _ _ third fourth =>
    obtain ⟨⟨secondLow, _⟩, ⟨thirdLow, _⟩, fourthLow, _⟩ := And.intro second (And.intro third fourth)
    simp only [List.mem_cons, List.not_mem_nil, or_false] at member
    rcases member with rfl | rfl | rfl | rfl <;> omega

theorem ofNat_val {v : Nat} (valid : v.isValidChar) : (Char.ofNat v).val.toNat = v := by
  rw [Char.ofNat, dif_pos valid]
  rfl

theorem ofNat_eq {n : Nat} {b : UInt8} (equal : n % 256 = b.toNat) : UInt8.ofNat n = b := by
  rw [← UInt8.toNat_inj, UInt8.toNat_ofNat', equal]

/-- A well-formed sequence is the encoding of its value. -/
theorem WellFormed.encode {bytes : List UInt8} {v : Nat} (wellFormed : WellFormed bytes v) :
    String.utf8EncodeChar (Char.ofNat v) = bytes := by
  cases wellFormed with
  | one ascii value =>
    rename_i b
    simp only [String.utf8EncodeChar, ofNat_val (v := v) (Or.inl (by omega))]
    rw [if_pos (by omega), ofNat_eq (b := b) (by omega)]
  | two low high second value =>
    rename_i b s
    obtain ⟨sLow, sHigh⟩ := second
    simp only [String.utf8EncodeChar, ofNat_val (v := v) (Or.inl (by omega))]
    rw [if_neg (by omega), if_pos (by omega), ofNat_eq (b := b) (by omega), ofNat_eq (b := s) (by omega)]
  | three low high second overlong surrogate third value =>
    rename_i b s t
    obtain ⟨sLow, sHigh⟩ := second
    obtain ⟨tLow, tHigh⟩ := third
    simp only [String.utf8EncodeChar, ofNat_val (v := v) (by simp only [Nat.isValidChar]; omega)]
    rw [if_neg (by omega), if_neg (by omega), if_pos (by omega), ofNat_eq (b := b) (by omega),
      ofNat_eq (b := s) (by omega), ofNat_eq (b := t) (by omega)]
  | four low high second overlong large third fourth value =>
    rename_i b s t u
    obtain ⟨sLow, sHigh⟩ := second
    obtain ⟨tLow, tHigh⟩ := third
    obtain ⟨uLow, uHigh⟩ := fourth
    simp only [String.utf8EncodeChar, ofNat_val (v := v) (by simp only [Nat.isValidChar]; omega)]
    rw [if_neg (by omega), if_neg (by omega), if_neg (by omega), ofNat_eq (b := b) (by omega),
      ofNat_eq (b := s) (by omega), ofNat_eq (b := t) (by omega), ofNat_eq (b := u) (by omega)]

theorem wellFormed_encode (c : Char) : WellFormed (String.utf8EncodeChar c) c.toNat := by
  have valid : c.val.toNat < 0xD800 ∨ 0xDFFF < c.val.toNat ∧ c.val.toNat < 0x110000 := c.valid
  simp only [String.utf8EncodeChar, Char.toNat]
  generalize c.val.toNat = v at valid ⊢
  split_ifs with small medium large
  · apply WellFormed.one <;> simp only [UInt8.toNat_ofNat'] <;> omega
  · apply WellFormed.two <;> simp only [Continuation, UInt8.toNat_ofNat'] <;> omega
  · apply WellFormed.three <;> simp only [Continuation, UInt8.toNat_ofNat'] <;> omega
  · apply WellFormed.four <;> simp only [Continuation, UInt8.toNat_ofNat'] <;> omega

end Utf8
