import Mathlib.Data.List.Basic

namespace BufWriter

/-- The bytes that a buffer holds, and those that its file takes at a time. -/
structure Sizes where
  cap : Nat
  limit : Nat
  fits : cap ≤ limit
  takes : 0 < limit

/-- A file takes bytes and writes them in the background. It tells the next call that
comes to it whether that write got through. -/
inductive Flight where
  | idle
  | landing
  | failing
deriving DecidableEq, Repr

/-- A call does not return: it fails, or it is dropped. -/
inductive Cause where
  | failed
  | cancelled
deriving DecidableEq, Repr

/-- What a call is about to hand to the file: the buffer, to make room for its data;
its long data; the buffer again, in a flush; and nothing any more. -/
inductive Phase where
  | spill (data : List UInt8)
  | direct (rest : List UInt8)
  | flush
  | sync
deriving DecidableEq, Repr

/-- The part of a call's data that is still its own. -/
def Phase.rest : Phase → List UInt8
  | .spill data => data
  | .direct rest => rest
  | .flush | .sync => []

end BufWriter

/-- A buffer before a file. The device has the bytes of a write that is landing from
the time on at which the file took them, and of a failing one those it gets. -/
structure BufWriter (z : BufWriter.Sizes) where
  device : List UInt8
  flight : BufWriter.Flight
  buf : List UInt8
  room : buf.length ≤ z.cap

namespace BufWriter
variable {z : Sizes}

def onto (device : List UInt8) : BufWriter z := ⟨device, .idle, [], Nat.zero_le _⟩

def emptied (w : BufWriter z) : BufWriter z := { w with buf := [], room := Nat.zero_le _ }

/-- The file takes a chunk. Its write fails after `n` bytes when its fate is `some n`. -/
def taken (w : BufWriter z) (chunk : List UInt8) : Option Nat → BufWriter z
  | some n =>
    if n < chunk.length then { w with device := w.device ++ chunk.take n, flight := .failing }
    else { w with device := w.device ++ chunk, flight := .landing }
  | none => { w with device := w.device ++ chunk, flight := .landing }

/-- `flush`, up to the file. -/
def beginFlush (w : BufWriter z) : Phase × BufWriter z := if w.buf = [] then (.sync, w) else (.flush, w)

/-- `write_all` with the flush after it, up to the file. Data that does not fit behind
the buffer has it spilled, and is buffered only if it is shorter than the buffer. -/
def beginWrite (w : BufWriter z) (data : List UInt8) : Phase × BufWriter z :=
  if data = [] then w.beginFlush
  else if tight : w.buf ≠ [] ∧ z.cap < w.buf.length + data.length then (.spill data, w)
  else if long : z.cap ≤ data.length then (.direct data, w)
  else
    (.flush, { w with
      buf := w.buf ++ data
      room := by
        rw [List.length_append]
        rcases not_and_or.mp tight with empty | fits
        · rw [not_not.mp empty, List.length_nil]
          omega
        · omega })

/-- What the file takes next. -/
def chunk (w : BufWriter z) : Phase → List UInt8
  | .spill _ | .flush => w.buf
  | .direct rest => rest.take z.limit
  | .sync => []

/-- What a call has come to after it was let go on. -/
inductive Turn (z : Sizes) where
  | waits (phase : Phase) (w : BufWriter z)
  | done (w : BufWriter z)
  | failed (w : BufWriter z)

/-- A call that comes to the file waits for the write under way. If that has failed, the
call fails, whoever's bytes they were, and leaves the buffer as it is. -/
def turn (w : BufWriter z) (fate : Option Nat) (phase : Phase) : Turn z :=
  if w.flight = .failing then .failed { w with flight := .idle }
  else
    let w' := w.taken (w.chunk phase) fate
    match phase with
    | .spill data => .waits (w'.emptied.beginWrite data).1 (w'.emptied.beginWrite data).2
    | .direct rest => .waits (w'.beginWrite (rest.drop z.limit)).1 (w'.beginWrite (rest.drop z.limit)).2
    | .flush => .waits .sync w'.emptied
    | .sync => .done { w with flight := .idle }

/-- What a call leaves in the buffer while it waits in a phase. -/
def Orderly (w : BufWriter z) : Phase → Prop
  | .spill data => data ≠ [] ∧ w.buf ≠ []
  | .direct rest => rest ≠ [] ∧ w.buf = []
  | .flush => w.buf ≠ []
  | .sync => w.buf = []

/-- A bound on the turns that a call takes from a phase on. -/
def Phase.weight : Phase → Nat
  | .spill data => data.length + 3
  | .direct rest => rest.length + 2
  | .flush => 2
  | .sync => 1

section Specs
variable {w : BufWriter z} {data : List UInt8} {fate : Option Nat}

@[simp] theorem buf_taken (w : BufWriter z) (chunk : List UInt8) (fate : Option Nat) : (w.taken chunk fate).buf = w.buf := by
  cases fate with
  | none => rfl
  | some n =>
    simp only [taken]
    split <;> rfl

/-- A write that gets through, or one that does not. -/
theorem taken_cases (w : BufWriter z) (chunk : List UInt8) (fate : Option Nat) :
    ((w.taken chunk fate).flight = .landing ∧ (w.taken chunk fate).device = w.device ++ chunk) ∨
      ∃ n, fate = some n ∧ n < chunk.length ∧ (w.taken chunk fate).flight = .failing ∧
        (w.taken chunk fate).device = w.device ++ chunk.take n := by
  cases fate with
  | none => exact Or.inl ⟨rfl, rfl⟩
  | some n =>
    by_cases short : n < chunk.length
    · have fails : w.taken chunk (some n) = { w with device := w.device ++ chunk.take n, flight := .failing } := if_pos short
      rw [fails]
      exact Or.inr ⟨n, rfl, short, rfl, rfl⟩
    · have lands : w.taken chunk (some n) = { w with device := w.device ++ chunk, flight := .landing } := if_neg short
      rw [lands]
      exact Or.inl ⟨rfl, rfl⟩

/-- What `write_all` finds, up to the file. -/
theorem beginWrite_cases (w : BufWriter z) (data : List UInt8) :
    ((w.beginWrite data).1 = .sync ∧ data = [] ∧ w.buf = [] ∧ (w.beginWrite data).2 = w) ∨
      ((w.beginWrite data).1 = .spill data ∧ data ≠ [] ∧ w.buf ≠ [] ∧ (w.beginWrite data).2 = w) ∨
      ((w.beginWrite data).1 = .direct data ∧ data ≠ [] ∧ w.buf = [] ∧ (w.beginWrite data).2 = w) ∨
      ((w.beginWrite data).1 = .flush ∧ w.buf ++ data ≠ [] ∧ (w.beginWrite data).2.buf = w.buf ++ data ∧
        (w.beginWrite data).2.device = w.device ∧ (w.beginWrite data).2.flight = w.flight) := by
  unfold beginWrite
  split
  · rename_i nothing
    unfold beginFlush
    split
    · rename_i empty
      exact Or.inl ⟨rfl, nothing, empty, rfl⟩
    · rename_i held
      exact Or.inr (Or.inr (Or.inr ⟨rfl, by simp [held], by rw [nothing, List.append_nil], rfl, rfl⟩))
  · rename_i some_
    split
    · rename_i tight
      exact Or.inr (Or.inl ⟨rfl, some_, tight.1, rfl⟩)
    · rename_i fits
      split
      · rename_i long
        have empty : w.buf = [] := by
          by_contra held
          have positive := List.length_pos_of_ne_nil held
          exact fits ⟨held, by omega⟩
        exact Or.inr (Or.inr (Or.inl ⟨rfl, some_, empty, rfl⟩))
      · exact Or.inr (Or.inr (Or.inr ⟨rfl, by simp [some_], rfl, rfl, rfl⟩))

/-- Up to the file nothing is lost, and the file is not touched. -/
theorem beginWrite_spec (w : BufWriter z) (data : List UInt8) :
    (w.beginWrite data).2.buf ++ (w.beginWrite data).1.rest = w.buf ++ data ∧
      (w.beginWrite data).2.Orderly (w.beginWrite data).1 ∧ (w.beginWrite data).2.device = w.device ∧
      (w.beginWrite data).2.flight = w.flight := by
  rcases beginWrite_cases w data with ⟨phase, nothing, empty, same⟩ | ⟨phase, some_, held, same⟩ |
    ⟨phase, some_, empty, same⟩ | ⟨phase, some_, buf, device, flight⟩
  · rw [phase, same, nothing, empty]
    exact ⟨rfl, empty, rfl, rfl⟩
  · rw [phase, same]
    exact ⟨rfl, ⟨some_, held⟩, rfl, rfl⟩
  · rw [phase, same]
    exact ⟨rfl, ⟨some_, empty⟩, rfl, rfl⟩
  · rw [phase, buf, device, flight, Orderly, buf]
    exact ⟨List.append_nil _, some_, rfl, rfl⟩

theorem beginWrite_weight (w : BufWriter z) (data : List UInt8) : (w.beginWrite data).1.weight ≤ data.length + 3 := by
  rcases beginWrite_cases w data with ⟨phase, _⟩ | ⟨phase, _⟩ | ⟨phase, _⟩ | ⟨phase, _⟩
  iterate 4
    rw [phase]
    simp [Phase.weight]

/-- Short data goes into an empty buffer. -/
theorem beginWrite_short {w : BufWriter z} (empty : w.buf = []) (some_ : data ≠ []) (short : data.length < z.cap) :
    (w.beginWrite data).1 = .flush := by
  rw [beginWrite, if_neg some_, dif_neg (by simp [empty]), dif_neg (by omega)]

/-- With an empty buffer nothing is to be spilled. -/
theorem beginWrite_empty {w : BufWriter z} (empty : w.buf = []) (data : List UInt8) :
    (∀ more, (w.beginWrite data).1 ≠ .spill more) ∧ (w.beginWrite data).1.weight ≤ data.length + 2 := by
  rcases beginWrite_cases w data with ⟨phase, _⟩ | ⟨_, _, held, _⟩ | ⟨phase, _⟩ | ⟨phase, _⟩
  · rw [phase]
    exact ⟨by simp, by simp [Phase.weight]⟩
  · exact (held empty).elim
  · rw [phase]
    exact ⟨by simp, by simp [Phase.weight]⟩
  · rw [phase]
    exact ⟨by simp, by simp [Phase.weight]⟩

theorem turn_of_failing (failing : w.flight = .failing) (phase : Phase) :
    w.turn fate phase = .failed { w with flight := .idle } := if_pos failing

theorem turn_sync (steady : w.flight ≠ .failing) : w.turn fate .sync = .done { w with flight := .idle } := if_neg steady

variable (fate) in
/-- A call that is let go on, with no failure to be told of, hands a chunk to the file. -/
theorem turn_waits (steady : w.flight ≠ .failing) {phase : Phase} (orderly : w.Orderly phase) (open_ : phase ≠ .sync) :
    ∃ phase' w', w.turn fate phase = .waits phase' w' ∧ w'.Orderly phase' ∧
      w.chunk phase ++ (w'.buf ++ phase'.rest) = w.buf ++ phase.rest ∧ phase'.weight < phase.weight ∧
      (∀ data, phase' ≠ .spill data) ∧ w'.flight = (w.taken (w.chunk phase) fate).flight ∧
      w'.device = (w.taken (w.chunk phase) fate).device := by
  rw [turn, if_neg steady]
  cases phase with
  | sync => exact (open_ rfl).elim
  | flush =>
    exact ⟨_, _, rfl, rfl, by simp [chunk, emptied, Phase.rest], by simp [Phase.weight], by simp, rfl, rfl⟩
  | spill data =>
    obtain ⟨stream, orderly', device, flight⟩ := beginWrite_spec (w.taken (w.chunk (.spill data)) fate).emptied data
    obtain ⟨noSpill, bound⟩ := beginWrite_empty
      (show (w.taken (w.chunk (.spill data)) fate).emptied.buf = [] from rfl) data
    refine ⟨_, _, rfl, orderly', ?_, ?_, noSpill, flight, device⟩
    · rw [stream]
      rfl
    · simp only [Phase.weight] at bound ⊢
      omega
  | direct rest =>
    obtain ⟨some_, empty⟩ := orderly
    have empty' : (w.taken (w.chunk (.direct rest)) fate).buf = [] := by rw [buf_taken, empty]
    obtain ⟨stream, orderly', device, flight⟩ := beginWrite_spec (w.taken (w.chunk (.direct rest)) fate) (rest.drop z.limit)
    obtain ⟨noSpill, bound⟩ := beginWrite_empty empty' (rest.drop z.limit)
    refine ⟨_, _, rfl, orderly', ?_, ?_, noSpill, flight, device⟩
    · rw [stream, empty', empty, chunk]
      exact List.take_append_drop z.limit rest
    · have shorter := List.length_pos_of_ne_nil some_
      have taken := z.takes
      rw [List.length_drop] at bound
      simp only [Phase.weight] at bound ⊢
      omega

end Specs

end BufWriter
