import PartlyProxy.Stub
import PartlyProxy.Lib.Utf8

namespace PartlyProxy
open Utf8

/-- What a lead byte announces, by the number of bytes after the second: its own bits
and the range of the second byte. -/
theorem utf8Lead_cases {b low high : UInt8} {acc more : Nat} (lead : utf8Lead b = some (low, high, acc, more)) :
    (more = 0 ∧ 0xC2 ≤ b.toNat ∧ b.toNat ≤ 0xDF ∧ acc = b.toNat - 0xC0 ∧ low.toNat = 0x80 ∧ high.toNat = 0xBF) ∨
      (more = 1 ∧ 0xE0 ≤ b.toNat ∧ b.toNat ≤ 0xEF ∧ acc = b.toNat - 0xE0 ∧
        (b.toNat = 0xE0 ∧ low.toNat = 0xA0 ∨ b.toNat ≠ 0xE0 ∧ low.toNat = 0x80) ∧
        (b.toNat = 0xED ∧ high.toNat = 0x9F ∨ b.toNat ≠ 0xED ∧ high.toNat = 0xBF)) ∨
      (more = 2 ∧ 0xF0 ≤ b.toNat ∧ b.toNat ≤ 0xF4 ∧ acc = b.toNat - 0xF0 ∧
        (b.toNat = 0xF0 ∧ low.toNat = 0x90 ∨ b.toNat ≠ 0xF0 ∧ low.toNat = 0x80) ∧
        (b.toNat = 0xF4 ∧ high.toNat = 0x8F ∨ b.toNat ≠ 0xF4 ∧ high.toNat = 0xBF)) := by
  unfold utf8Lead at lead
  simp only [UInt8.le_iff_toNat_le, ← UInt8.toNat_inj] at lead
  split_ifs at lead
  all_goals
    obtain ⟨rfl, rfl, rfl, rfl⟩ : _ ∧ _ ∧ _ ∧ _ := by simpa using lead
    simp only [UInt8.reduceToNat] at *
    simp
    omega

theorem utf8Lead_eq_none {b : UInt8} (none : utf8Lead b = none) : b.toNat < 0xC2 ∨ 0xF4 < b.toNat := by
  unfold utf8Lead at none
  simp only [UInt8.le_iff_toNat_le, ← UInt8.toNat_inj] at none
  split_ifs at none
  simp only [UInt8.reduceToNat] at *
  omega

theorem continuation_iff (b : UInt8) : 0x80 ≤ b ∧ b ≤ 0xBF ↔ Continuation b := by
  simp only [UInt8.le_iff_toNat_le, UInt8.reduceToNat, Continuation]

/-- The value of the bits that continuation bytes bring. -/
def utf8Value (acc : Nat) (tail : Bytes) : Nat := tail.foldl (fun acc b => acc * 64 + (b.toNat - 0x80)) acc

theorem utf8Value_cons (acc : Nat) (b : UInt8) (tail : Bytes) :
    utf8Value acc (b :: tail) = utf8Value (acc * 64 + (b.toNat - 0x80)) tail := List.foldl_cons ..

theorem utf8Tail_append (acc : Nat) {tail : Bytes} (inside : ∀ b ∈ tail, Continuation b) (rest : Bytes) :
    utf8Tail acc tail.length (tail ++ rest) = (Char.ofNat (utf8Value acc tail), rest) := by
  induction tail generalizing acc with
  | nil => rfl
  | cons b tail ih =>
    obtain ⟨here, later⟩ := List.forall_mem_cons.mp inside
    rw [List.length_cons, List.cons_append, utf8Tail, if_pos ((continuation_iff b).mpr here)]
    rw [utf8Value_cons, ih _ later]

/-- Only continuation bytes are consumed, all of them if the result is no
replacement. -/
theorem utf8Tail_spec (acc n : Nat) (rest : Bytes) :
    ∃ tail, rest = tail ++ (utf8Tail acc n rest).2 ∧ (∀ b ∈ tail, Continuation b) ∧
      ((utf8Tail acc n rest).1 ≠ replacementChar →
        tail.length = n ∧ (utf8Tail acc n rest).1 = Char.ofNat (utf8Value acc tail)) := by
  induction n generalizing acc rest with
  | zero => exact ⟨[], rfl, by simp, fun _ => ⟨rfl, rfl⟩⟩
  | succ n ih =>
    cases rest with
    | nil => exact ⟨[], rfl, by simp, fun kept => (kept rfl).elim⟩
    | cons b rest =>
      rw [utf8Tail]
      split
      · rename_i range
        have inside := (continuation_iff b).mp range
        obtain ⟨tail, cut, all, value⟩ := ih (acc * 64 + (b.toNat - 0x80)) rest
        refine ⟨b :: tail, congrArg (b :: ·) cut, List.forall_mem_cons.mpr ⟨inside, all⟩, fun kept => ?_⟩
        obtain ⟨length, isValue⟩ := value kept
        rw [utf8Value_cons]
        exact ⟨congrArg (· + 1) length, isValue⟩
      · exact ⟨[], rfl, by simp, fun kept => (kept rfl).elim⟩

/-- One step of the decoder: the byte at the boundary and continuation bytes are
consumed, and they are the character's own encoding unless it is a replacement. -/
theorem utf8Step_spec (b : UInt8) (rest : Bytes) :
    ∃ tail, rest = tail ++ (utf8Step b rest).2 ∧ (∀ x ∈ tail, Continuation x) ∧
      ((utf8Step b rest).1 ≠ replacementChar → String.utf8EncodeChar (utf8Step b rest).1 = b :: tail) := by
  unfold utf8Step
  split
  · rename_i ascii
    have small : b.toNat ≤ 0x7F := Nat.le_of_lt_succ (UInt8.lt_iff_toNat_lt.mp ascii)
    exact ⟨[], rfl, by simp, fun _ => (WellFormed.one small rfl).encode⟩
  · split
    · rename_i low high acc more second rest lead
      split
      · rename_i range
        simp only [UInt8.le_iff_toNat_le] at range
        obtain ⟨tail, cut, all, value⟩ := utf8Tail_spec (acc * 64 + (second.toNat - 0x80)) more rest
        have ofLead := utf8Lead_cases lead
        have inside : Continuation second := by
          simp only [Continuation]
          omega
        refine ⟨second :: tail, congrArg (second :: ·) cut, List.forall_mem_cons.mpr ⟨inside, all⟩, fun kept => ?_⟩
        obtain ⟨length, isValue⟩ := value kept
        rw [isValue]
        apply WellFormed.encode
        rcases ofLead with ⟨isMore, lower, upper, isAcc, _⟩ | ⟨isMore, lower, upper, isAcc, isLow, isHigh⟩ |
          ⟨isMore, lower, upper, isAcc, isLow, isHigh⟩ <;> rw [isMore] at length <;> rw [isAcc]
        · obtain rfl := List.length_eq_zero_iff.mp length
          exact .two lower upper inside (by simp only [utf8Value, List.foldl_nil])
        · obtain ⟨third, rfl⟩ := List.length_eq_one_iff.mp length
          exact .three lower upper inside (by omega) (by omega) (all third (by simp))
            (by simp only [utf8Value, List.foldl_cons, List.foldl_nil])
        · obtain ⟨third, fourth, rfl⟩ := List.length_eq_two.mp length
          exact .four lower upper inside (by omega) (by omega) (all third (by simp)) (all fourth (by simp))
            (by simp only [utf8Value, List.foldl_cons, List.foldl_nil])
      · exact ⟨[], rfl, by simp, fun kept => (kept rfl).elim⟩
    · exact ⟨[], rfl, by simp, fun kept => (kept rfl).elim⟩

theorem utf8Step_second {b low high : UInt8} {acc : Nat} (second : UInt8) (tail rest : Bytes)
    (lead : utf8Lead b = some (low, high, acc, tail.length)) (lower : low.toNat ≤ second.toNat)
    (upper : second.toNat ≤ high.toNat) (inside : ∀ x ∈ tail, Continuation x) :
    utf8Step b (second :: (tail ++ rest)) = (Char.ofNat (utf8Value (acc * 64 + (second.toNat - 0x80)) tail), rest) := by
  have notAscii : ¬ b < 0x80 := by
    have ofLead := utf8Lead_cases lead
    simp only [UInt8.lt_iff_toNat_lt, UInt8.reduceToNat]
    omega
  have range : low ≤ second ∧ second ≤ high := ⟨UInt8.le_iff_toNat_le.mpr lower, UInt8.le_iff_toNat_le.mpr upper⟩
  simp only [utf8Step, if_neg notAscii, lead, if_pos range]
  exact utf8Tail_append _ inside rest

theorem exists_utf8Lead {b : UInt8} (lower : 0xC2 ≤ b.toNat) (upper : b.toNat ≤ 0xF4) :
    ∃ low high acc more, utf8Lead b = some (low, high, acc, more) := by
  cases lead : utf8Lead b with
  | none =>
    have outside := utf8Lead_eq_none lead
    omega
  | some announced => exact ⟨announced.1, announced.2.1, announced.2.2.1, announced.2.2.2, rfl⟩

/-- At the first byte of an encoded character the decoder reads that character. -/
theorem utf8Step_encode {c : Char} {b : UInt8} {tail : Bytes} (encoded : String.utf8EncodeChar c = b :: tail)
    (rest : Bytes) : utf8Step b (tail ++ rest) = (c, rest) := by
  have formed := wellFormed_encode c
  rw [encoded] at formed
  have same : Char.ofNat c.toNat = c := Char.ofNat_toNat c
  generalize c.toNat = v at formed same
  cases formed with
  | one ascii value =>
    have small : b < 0x80 := UInt8.lt_iff_toNat_lt.mpr (Nat.lt_succ_of_le ascii)
    simp only [utf8Step, if_pos small, List.nil_append, ← value, same]
  | two low high second value =>
    rename_i s
    obtain ⟨lower, upper, acc, more, lead⟩ := exists_utf8Lead (b := b) (by omega) (by omega)
    obtain ⟨sLow, sHigh⟩ := second
    obtain ⟨isMore, isAcc, above, below⟩ : more = 0 ∧ acc = b.toNat - 0xC0 ∧ lower.toNat ≤ s.toNat ∧
        s.toNat ≤ upper.toNat := by
      have ofLead := utf8Lead_cases lead
      omega
    rw [isMore] at lead
    have step := utf8Step_second s [] rest lead above below (by simp)
    simp only [utf8Value, List.foldl_nil, isAcc, ← value, same] at step
    exact step
  | three low high second overlong surrogate third value =>
    rename_i s t
    obtain ⟨lower, upper, acc, more, lead⟩ := exists_utf8Lead (b := b) (by omega) (by omega)
    obtain ⟨sLow, sHigh⟩ := second
    obtain ⟨isMore, isAcc, above, below⟩ : more = 1 ∧ acc = b.toNat - 0xE0 ∧ lower.toNat ≤ s.toNat ∧
        s.toNat ≤ upper.toNat := by
      have ofLead := utf8Lead_cases lead
      omega
    rw [isMore] at lead
    have step := utf8Step_second s [t] rest lead above below (by simpa using third)
    simp only [utf8Value, List.foldl_cons, List.foldl_nil, isAcc, ← value, same] at step
    exact step
  | four low high second overlong large third fourth value =>
    rename_i s t u
    obtain ⟨lower, upper, acc, more, lead⟩ := exists_utf8Lead (b := b) (by omega) (by omega)
    obtain ⟨sLow, sHigh⟩ := second
    obtain ⟨isMore, isAcc, above, below⟩ : more = 2 ∧ acc = b.toNat - 0xF0 ∧ lower.toNat ≤ s.toNat ∧
        s.toNat ≤ upper.toNat := by
      have ofLead := utf8Lead_cases lead
      omega
    rw [isMore] at lead
    have step := utf8Step_second s [t, u] rest lead above below (by simpa using ⟨third, fourth⟩)
    simp only [utf8Value, List.foldl_cons, List.foldl_nil, isAcc, ← value, same] at step
    exact step

theorem utf8Step_shorter (b : UInt8) (rest : Bytes) : (utf8Step b rest).2.length ≤ rest.length := by
  obtain ⟨tail, cut, _⟩ := utf8Step_spec b rest
  have length := congrArg List.length cut
  rw [List.length_append] at length
  omega

theorem fromUtf8LossyFuel_eq {fuel : Nat} {bytes : Bytes} (enough : bytes.length ≤ fuel) :
    fromUtf8LossyFuel fuel bytes = fromUtf8Lossy bytes := by
  rw [fromUtf8Lossy]
  generalize length : bytes.length = exact at enough
  have enough' : bytes.length ≤ exact := Nat.le_of_eq length
  clear length
  induction fuel generalizing exact bytes with
  | zero =>
    obtain rfl := Nat.le_zero.mp enough
    rfl
  | succ fuel ih =>
    cases bytes with
    | nil => cases exact <;> rfl
    | cons b rest =>
      cases exact with
      | zero => simp at enough'
      | succ exact =>
        have shorter := utf8Step_shorter b rest
        rw [List.length_cons] at enough'
        rw [fromUtf8LossyFuel, fromUtf8LossyFuel, ih exact (by omega) (by omega)]

theorem fromUtf8Lossy_cons (b : UInt8) (rest : Bytes) :
    fromUtf8Lossy (b :: rest) = (utf8Step b rest).1 :: fromUtf8Lossy (utf8Step b rest).2 := by
  rw [fromUtf8Lossy, List.length_cons, fromUtf8LossyFuel, fromUtf8LossyFuel_eq (utf8Step_shorter b rest)]

theorem fromUtf8Lossy_encode (text : List Char) (rest : Bytes) :
    fromUtf8Lossy (text.flatMap String.utf8EncodeChar ++ rest) = text ++ fromUtf8Lossy rest := by
  induction text with
  | nil => rfl
  | cons c text ih =>
    obtain ⟨b, tail, encoded, _⟩ := (wellFormed_encode c).split
    rw [List.flatMap_cons, encoded, List.append_assoc, List.cons_append, fromUtf8Lossy_cons, utf8Step_encode encoded, ih]
    rfl

/-- A byte that is no continuation byte is never consumed by what stands before it. -/
theorem fromUtf8Lossy_boundary {b : UInt8} (lead : ¬ Continuation b) (front rest : Bytes) :
    ∃ decoded, fromUtf8Lossy (front ++ b :: rest) = decoded ++ fromUtf8Lossy (b :: rest) := by
  induction size : front.length using Nat.strong_induction_on generalizing front with
  | _ n ih =>
    cases front with
    | nil => exact ⟨[], rfl⟩
    | cons first front =>
      obtain ⟨tail, cut, inside, _⟩ := utf8Step_spec first (front ++ b :: rest)
      rw [List.cons_append, fromUtf8Lossy_cons]
      rcases List.append_eq_append_iff.mp cut with ⟨between, isTail, later⟩ | ⟨between, isFront, later⟩
      · cases between with
        | nil =>
          rw [List.nil_append] at later
          exact ⟨[(utf8Step first (front ++ b :: rest)).1], by rw [← later]; rfl⟩
        | cons next between =>
          -- the byte would be among those consumed
          obtain ⟨rfl, _⟩ := List.cons.inj later
          exact (lead (inside b (by simp [isTail]))).elim
      · rw [later]
        have shorter : between.length < n := by
          have lengths : front.length = tail.length + between.length := by rw [isFront, List.length_append]
          rw [← size, List.length_cons]
          omega
        obtain ⟨decoded, isDecoded⟩ := ih between.length shorter between rfl
        exact ⟨(utf8Step first (front ++ b :: rest)).1 :: decoded, by rw [isDecoded]; rfl⟩

/-- What was decoded, cut into the bytes each character was read from. -/
theorem fromUtf8Lossy_chunks (bytes : Bytes) : ∃ chunks : List (Bytes × Char),
    bytes = chunks.flatMap Prod.fst ∧ fromUtf8Lossy bytes = chunks.map Prod.snd ∧
      ∀ chunk ∈ chunks, chunk.2 ≠ replacementChar → chunk.1 = String.utf8EncodeChar chunk.2 := by
  induction n : bytes.length using Nat.strong_induction_on generalizing bytes with
  | _ n ih =>
    cases bytes with
    | nil => exact ⟨[], rfl, rfl, by simp⟩
    | cons b rest =>
      obtain ⟨tail, cut, _, encoded⟩ := utf8Step_spec b rest
      have shorter := utf8Step_shorter b rest
      rw [List.length_cons] at n
      obtain ⟨chunks, isRest, decoded, each⟩ := ih _ (by omega) (utf8Step b rest).2 rfl
      refine ⟨(b :: tail, (utf8Step b rest).1) :: chunks, ?_, ?_, ?_⟩
      · rw [List.flatMap_cons, ← isRest, List.cons_append, ← cut]
      · rw [fromUtf8Lossy_cons, decoded, List.map_cons]
      · exact List.forall_mem_cons.mpr ⟨fun kept => (encoded kept).symm, each⟩

/-- A text without U+FFFD can only have been read from its own bytes. -/
theorem encode_infix_of_decoded {text : List Char} {bytes : Bytes} (kept : replacementChar ∉ text)
    (occurs : text <:+: fromUtf8Lossy bytes) : text.flatMap String.utf8EncodeChar <:+: bytes := by
  obtain ⟨before, after, occurs⟩ := occurs
  obtain ⟨chunks, rfl, isDecoded, each⟩ := fromUtf8Lossy_chunks bytes
  rw [isDecoded] at occurs
  obtain ⟨front, last, rfl, isFront, _⟩ := List.map_eq_append_iff.mp occurs.symm
  obtain ⟨first, middle, rfl, _, rfl⟩ := List.map_eq_append_iff.mp isFront
  have own : middle.flatMap Prod.fst = (middle.map Prod.snd).flatMap String.utf8EncodeChar := by
    rw [List.flatMap_map]
    refine List.flatMap_congr fun chunk member => each chunk (by simp [member]) ?_
    intro replaced
    exact kept (List.mem_map.mpr ⟨chunk, member, replaced⟩)
  rw [List.flatMap_append, List.flatMap_append, own]
  exact ⟨_, _, rfl⟩

/-- Where the bytes of a text occur it is read, whatever stands before them. -/
theorem decoded_of_encode_infix {text : List Char} {bytes : Bytes}
    (occurs : text.flatMap String.utf8EncodeChar <:+: bytes) : text <:+: fromUtf8Lossy bytes := by
  obtain ⟨front, rest, rfl⟩ := occurs
  cases text with
  | nil => exact List.nil_infix
  | cons c text =>
    obtain ⟨b, tail, encoded, lead, _⟩ := (wellFormed_encode c).split
    have bytes : (c :: text).flatMap String.utf8EncodeChar ++ rest =
        b :: (tail ++ text.flatMap String.utf8EncodeChar ++ rest) := by
      rw [List.flatMap_cons, encoded, List.cons_append, List.cons_append]
    obtain ⟨read, isRead⟩ := fromUtf8Lossy_boundary lead front (tail ++ text.flatMap String.utf8EncodeChar ++ rest)
    rw [← bytes, fromUtf8Lossy_encode, ← List.append_assoc, ← List.append_assoc] at isRead
    exact ⟨read, fromUtf8Lossy rest, isRead.symm⟩

/-- The body constraint of a matcher whose needle is a text without U+FFFD holds
exactly of the bodies in which the needle's bytes occur, whatever bytes stand around
them. -/
theorem body_contains_exact (m : RequestMatcher) (needle : String) (text : replacementChar ∉ needle.toList)
    (req : ProxyRequest) :
    (m.withBodyContains needle.toUTF8.toList).matchesBody req = true ↔ needle.toUTF8.toList <:+: req.body := by
  have decoded : fromUtf8Lossy (needle.toList.flatMap String.utf8EncodeChar) = needle.toList := by
    have whole := fromUtf8Lossy_encode needle.toList []
    rw [List.append_nil] at whole
    rw [whole]
    exact List.append_nil _
  simp only [RequestMatcher.matchesBody, RequestMatcher.withBodyContains, decide_eq_true_eq, bytes_eq, decoded]
  exact ⟨encode_infix_of_decoded text, decoded_of_encode_infix⟩

/-- The euro sign in a body after a lead byte that announces more than there is. -/
theorem body_contains_exact_euro :
    (RequestMatcher.any.withBodyContains "€".toUTF8.toList).matchesBody
      ⟨"POST", .ofData "/" (by decide), .empty, [0xF0, 0x9F, 0xE2, 0x82, 0xAC, 0x82], .http11⟩ = true := by
  refine (body_contains_exact .any "€" (by decide) _).mpr ?_
  rw [bytes_eq]
  exact ⟨[0xF0, 0x9F], [0x82], by decide⟩

end PartlyProxy
