import PartlyProxy.Lib.Utf8

namespace Lines

def encode (text : String) : List UInt8 := text.toByteArray.data.toList

def decode (bytes : List UInt8) : Option String := String.fromUTF8? ⟨bytes.toArray⟩

@[simp] theorem decode_encode (text : String) : decode (encode text) = some text := by
  simp only [decode, encode, Array.toArray_toList, String.fromUTF8?]
  exact dif_pos text.isValidUTF8

theorem encode_append (front back : String) : encode (front ++ back) = encode front ++ encode back := by
  simp only [encode, Utf8.data_eq, String.toList_append, List.flatMap_append]

theorem encode_printable {text : String} (printable : ∀ c ∈ text.toList, 32 ≤ c.toNat) :
    ∀ b ∈ encode text, 32 ≤ b.toNat := by
  intro b member
  rw [encode, Utf8.data_eq] at member
  obtain ⟨c, inText, inChar⟩ := List.mem_flatMap.mp member
  have bound := printable c inText
  rcases (Utf8.wellFormed_encode c).ascii_or_high inChar with same | high <;> omega

/-- The pieces of a file up to and with each line feed; the last may lack it. -/
def pieces : List UInt8 → List (List UInt8)
  | [] => []
  | b :: rest =>
    if b = 10 then [b] :: pieces rest
    else
      match pieces rest with
      | [] => [[b]]
      | piece :: more => (b :: piece) :: more

/-- A line without its line feed and the carriage return before it. -/
def chomp (piece : List UInt8) : List UInt8 :=
  if piece.getLast? = some 10 then
    if piece.dropLast.getLast? = some 13 then piece.dropLast.dropLast else piece.dropLast
  else piece

theorem pieces_line {line : List UInt8} (unbroken : ∀ b ∈ line, b ≠ 10) (rest : List UInt8) :
    pieces (line ++ 10 :: rest) = (line ++ [10]) :: pieces rest := by
  induction line with
  | nil => simp [pieces]
  | cons b line ih =>
    have later := ih fun c member => unbroken c (List.mem_cons_of_mem _ member)
    simp [pieces, unbroken b (List.mem_cons_self ..), later]

theorem chomp_line {line : List UInt8} (unbroken : ∀ b ∈ line, b ≠ 13) : chomp (line ++ [10]) = line := by
  have noReturn : line.getLast? ≠ some 13 := fun last => unbroken 13 (List.mem_of_getLast? last) rfl
  simp [chomp, noReturn]

/-- The bytes end with a line. -/
def AtEnd (bytes : List UInt8) : Prop := bytes = [] ∨ bytes.getLast? = some 10

theorem pieces_ne_nil (b : UInt8) (rest : List UInt8) : pieces (b :: rest) ≠ [] := by
  unfold pieces
  split
  · simp
  · split <;> simp

theorem pieces_feed (rest : List UInt8) : pieces (10 :: rest) = [10] :: pieces rest := if_pos rfl

theorem pieces_within {b : UInt8} (inside : b ≠ 10) {rest piece : List UInt8} {others : List (List UInt8)}
    (first : pieces rest = piece :: others) : pieces (b :: rest) = (b :: piece) :: others := by
  rw [pieces, if_neg inside, first]

/-- Where a line ends, the pieces of both sides are those of the whole. -/
theorem pieces_append {front : List UInt8} (atEnd : AtEnd front) (back : List UInt8) :
    pieces (front ++ back) = pieces front ++ pieces back := by
  induction front with
  | nil => rfl
  | cons b rest ih =>
    have last := atEnd.resolve_left (List.cons_ne_nil b rest)
    cases rest with
    | nil =>
      have feed : b = 10 := Option.some.inj last
      subst feed
      exact pieces_feed back
    | cons next more =>
      have later := ih (Or.inr (by rwa [List.getLast?_cons_cons] at last))
      by_cases feed : b = 10
      · subst feed
        rw [List.cons_append, pieces_feed, later, pieces_feed, List.cons_append]
      · cases first : pieces (next :: more) with
        | nil => exact absurd first (pieces_ne_nil next more)
        | cons piece others =>
          rw [first] at later
          rw [List.cons_append, pieces_within feed later, pieces_within feed first]
          rfl

/-- Whole lines that are cut at the end of a line are cut between two lines. -/
theorem cut_at_end {α : Type*} {line : α → List UInt8}
    (whole : ∀ a, ∃ text, line a = text ++ [10] ∧ ∀ b ∈ text, b ≠ 10) (items : List α) {n : Nat}
    (atEnd : AtEnd ((items.flatMap line).take n)) :
    ∃ front back, items = front ++ back ∧ (items.flatMap line).take n = front.flatMap line ∧
      (items.flatMap line).drop n = back.flatMap line := by
  induction items generalizing n with
  | nil => exact ⟨[], [], rfl, by simp, by simp⟩
  | cons a rest ih =>
    obtain ⟨text, isLine, unbroken⟩ := whole a
    rw [List.flatMap_cons] at atEnd ⊢
    rcases Nat.eq_zero_or_pos n with rfl | some_
    · exact ⟨[], a :: rest, rfl, by simp, by simp⟩
    rcases Nat.lt_or_ge n (line a).length with inside | beyond
    · -- Inside a line there is no line feed to end with.
      have short : n ≤ text.length := by
        rw [isLine, List.length_append, List.length_singleton] at inside
        omega
      have cut : (line a ++ rest.flatMap line).take n = text.take n := by
        rw [List.take_append_of_le_length (by omega), isLine, List.take_append_of_le_length short]
      rw [cut] at atEnd
      rcases atEnd with nothing | feed
      · have := congrArg List.length nothing
        rw [List.length_take, List.length_nil] at this
        omega
      · exact (unbroken 10 (List.mem_of_mem_take (List.mem_of_getLast? feed)) rfl).elim
    · obtain ⟨more, rfl⟩ : ∃ more, n = (line a).length + more := ⟨n - (line a).length, by omega⟩
      rw [List.take_length_add_append] at atEnd
      rw [List.take_length_add_append, List.drop_length_add_append]
      have later : AtEnd ((rest.flatMap line).take more) := by
        cases tail : (rest.flatMap line).take more with
        | nil => exact Or.inl rfl
        | cons b bytes =>
          rw [tail] at atEnd
          rcases atEnd with nothing | feed
          · simp at nothing
          · exact Or.inr (by rwa [List.getLast?_append_of_ne_nil _ (List.cons_ne_nil b bytes)] at feed)
      obtain ⟨front, back, rfl, took, left⟩ := ih later
      exact ⟨a :: front, back, rfl, by rw [took, List.flatMap_cons], left⟩

/-- A whole line at the front of a text that begins with a line is that line. -/
theorem first_line {α : Type*} {feed : α} {line text rest more : List α} (unbroken : feed ∉ line) (whole : feed ∉ text)
    (front : line ++ feed :: rest <+: text ++ feed :: more) : line = text ∧ rest <+: more := by
  induction line generalizing text with
  | nil =>
    cases text with
    | nil => exact ⟨rfl, (List.cons_prefix_cons.mp front).2⟩
    | cons b text =>
      have same := (List.cons_prefix_cons.mp front).1
      exact (whole (same ▸ List.mem_cons_self ..)).elim
  | cons b line ih =>
    have later : feed ∉ line := fun member => unbroken (List.mem_cons_of_mem _ member)
    cases text with
    | nil =>
      have same := (List.cons_prefix_cons.mp front).1
      exact (unbroken (same ▸ List.mem_cons_self ..)).elim
    | cons b' text =>
      obtain ⟨rfl, behind⟩ := List.cons_prefix_cons.mp front
      obtain ⟨rfl, left⟩ := ih later (fun member => whole (List.mem_cons_of_mem _ member)) behind
      exact ⟨rfl, left⟩

section Split
variable {α : Type*} {feed : α}

/-- A text is cut before the first character that does not pass. -/
theorem not_of_dropWhile {pass : α → Bool} {text rest : List α} {b : α} (left : text.dropWhile pass = b :: rest) :
    pass b = false := by
  have stops := List.head?_dropWhile_not pass text
  rw [left] at stops
  exact stops

theorem eq_of_dropWhile [DecidableEq α] {text rest : List α} {b : α} (left : text.dropWhile (· ≠ feed) = b :: rest) :
    b = feed := by
  have stops := not_of_dropWhile left
  exact of_not_not (of_decide_eq_false stops)

theorem intercalate_lines (lines : List (List α)) (rest : List α) :
    [feed].intercalate (lines ++ [rest]) = lines.flatMap (· ++ [feed]) ++ rest := by
  induction lines with
  | nil => simp
  | cons line lines ih =>
    have more : lines ++ [rest] ≠ [] := by simp
    rw [List.cons_append, List.intercalate_cons_of_ne_nil more, ih, List.flatMap_cons]
    simp only [List.append_assoc]

/-- Where the front is cut inside what the back leaves, the two cuts commute. -/
theorem dropWhile_takeWhile {front back : α → Bool} {text : List α} (inside : ∃ b ∈ text.takeWhile back, front b = false) :
    (text.takeWhile back).dropWhile front = (text.dropWhile front).takeWhile back := by
  induction text with
  | nil => rfl
  | cons b text ih =>
    obtain ⟨stop, member, stops⟩ := inside
    cases passes : back b with
    | false => simp [passes] at member
    | true =>
      rw [List.takeWhile_cons_of_pos passes] at member ⊢
      cases drops : front b with
      | false => simp [drops, passes]
      | true =>
        have later : stop ∈ text.takeWhile back := by
          rcases List.mem_cons.mp member with rfl | later
          · rw [stops] at drops
            cases drops
          · exact later
        rw [List.dropWhile_cons_of_pos drops, List.dropWhile_cons_of_pos drops]
        exact ih ⟨stop, later, stops⟩

theorem passes_of_not_mem [DecidableEq α] {line : List α} (unbroken : feed ∉ line) : ∀ b ∈ line, decide (b ≠ feed) = true := by
  intro b member
  rw [decide_eq_true_eq]
  rintro rfl
  exact unbroken member

variable [BEq α]

theorem exists_split (feed : α) (text : List α) : ∃ lines rest, text.splitOn feed = lines ++ [rest] :=
  ⟨_, _, (List.dropLast_concat_getLast (List.splitOn_ne_nil feed text)).symm⟩

variable [LawfulBEq α]

theorem not_mem_of_splitOn {text piece : List α} (member : piece ∈ text.splitOn feed) : feed ∉ piece := by
  induction text generalizing piece with
  | nil =>
    rw [List.splitOn_nil, List.mem_singleton] at member
    simp [member]
  | cons b text ih =>
    rw [List.splitOn_cons_eq_if_modifyHead] at member
    by_cases ends : b = feed
    · rw [if_pos (beq_iff_eq.mpr ends)] at member
      rcases List.mem_cons.mp member with rfl | later
      · simp
      · exact ih later
    · rw [if_neg (by simpa using ends)] at member
      obtain ⟨first, more, pieces⟩ := List.exists_cons_of_ne_nil (List.splitOn_ne_nil feed text)
      rw [pieces] at member ih
      rcases List.mem_cons.mp member with rfl | later
      · have unbroken := ih (List.mem_cons_self ..)
        simp [Ne.symm ends, unbroken]
      · exact ih (List.mem_cons_of_mem _ later)

theorem unbroken_of_splitOn {text rest : List α} {lines : List (List α)} (split : text.splitOn feed = lines ++ [rest]) :
    (∀ line ∈ lines, feed ∉ line) ∧ feed ∉ rest := by
  have pieces : ∀ piece ∈ lines ++ [rest], feed ∉ piece := fun piece member => not_mem_of_splitOn (split ▸ member)
  obtain ⟨unbroken, broken⟩ := List.forall_mem_append.mp pieces
  exact ⟨unbroken, broken rest (List.mem_singleton_self rest)⟩

/-- Whole lines in front of a text are the first to be split off. -/
theorem splitOn_lines {lines : List (List α)} (unbroken : ∀ line ∈ lines, feed ∉ line) (text : List α) :
    (lines.flatMap (· ++ [feed]) ++ text).splitOn feed = lines ++ text.splitOn feed := by
  induction lines with
  | nil => rfl
  | cons line lines ih =>
    obtain ⟨here, later⟩ := List.forall_mem_cons.mp unbroken
    have first : (line :: lines).flatMap (· ++ [feed]) ++ text = line ++ feed :: (lines.flatMap (· ++ [feed]) ++ text) := by
      simp
    rw [first, List.splitOn_append_cons_self_of_not_mem here, ih later, List.cons_append]

theorem lines_of_splitOn {text rest : List α} {lines : List (List α)} (split : text.splitOn feed = lines ++ [rest]) :
    text = lines.flatMap (· ++ [feed]) ++ rest := by
  rw [← intercalate_lines, ← split, List.intercalate_splitOn]

/-- To split a text that goes on, it is enough to go on with what was left. -/
theorem splitOn_append {front rest : List α} {lines : List (List α)} (split : front.splitOn feed = lines ++ [rest])
    (back : List α) : (front ++ back).splitOn feed = lines ++ (rest ++ back).splitOn feed := by
  rw [lines_of_splitOn split, List.append_assoc, splitOn_lines (unbroken_of_splitOn split).1]

end Split

end Lines
