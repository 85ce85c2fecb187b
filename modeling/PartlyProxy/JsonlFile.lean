import PartlyProxy.JsonlReplay
import PartlyProxy.Lib.BufWriter
import PartlyProxy.Lib.Execution

namespace PartlyProxy

/-- A call that holds the lock of a `JsonlStorage`: of `append` with its exchange, or of
`flush`. -/
structure JsonlCall where
  exchange : Option RecordedExchange
  phase : BufWriter.Phase

/-- A `JsonlStorage` over its file. The log has every `append` in the order in which
they ended, with what kept it from returning `Ok`. -/
structure JsonlFile (z : BufWriter.Sizes) where
  writer : BufWriter z
  call : Option JsonlCall
  log : List (RecordedExchange × Option BufWriter.Cause)

/-- `giveUp` is an append that is cancelled while it waits for the lock. -/
inductive JsonlMove where
  | append (e : RecordedExchange)
  | flush
  | poll (fate : Option Nat)
  | cancel
  | giveUp (e : RecordedExchange)
  | reopen

namespace JsonlFile
variable {z : BufWriter.Sizes}

def opened (file : Bytes) : JsonlFile z := ⟨.onto file, none, []⟩

/-- What the log takes up of a call that has ended. -/
def ended (call : JsonlCall) (kept : Option BufWriter.Cause) : List (RecordedExchange × Option BufWriter.Cause) :=
  (call.exchange.map fun e => (e, kept)).toList

/-- A call that finds the lock taken waits for it. One that holds it can be dropped
between any two of its turns. -/
def step (serde : Serde) (f : JsonlFile z) : JsonlMove → JsonlFile z
  | .append e =>
    match f.call with
    | some _ => f
    | none =>
      let (phase, w) := f.writer.beginWrite (jsonlLine serde e)
      { f with writer := w, call := some ⟨some e, phase⟩ }
  | .flush =>
    match f.call with
    | some _ => f
    | none =>
      let (phase, w) := f.writer.beginFlush
      { f with writer := w, call := some ⟨none, phase⟩ }
  | .poll fate =>
    match f.call with
    | none => f
    | some call =>
      match f.writer.turn fate call.phase with
      | .waits phase w => { f with writer := w, call := some { call with phase := phase } }
      | .done w => ⟨w, none, f.log ++ ended call none⟩
      | .failed w => ⟨w, none, f.log ++ ended call (some .failed)⟩
  | .cancel =>
    match f.call with
    | none => f
    | some call => { f with call := none, log := f.log ++ ended call (some .cancelled) }
  | .giveUp e => { f with log := f.log ++ [(e, some .cancelled)] }
  -- A dropped `BufWriter` takes its buffer with it, and a dropped call.
  | .reopen =>
    match f.call with
    | none => { f with writer := .onto f.writer.device }
    | some call => ⟨.onto f.writer.device, none, f.log ++ ended call (some .cancelled)⟩

/-- `load`, when no write is under way. -/
def load (serde : Serde) (f : JsonlFile z) : Except ProxyError (List RecordedExchange) :=
  (jsonlStorage serde).load f.writer.device

def accepted (f : JsonlFile z) : List RecordedExchange := (f.log.filter fun entry => entry.2 = none).map Prod.fst

def notFailed (f : JsonlFile z) : List RecordedExchange :=
  (f.log.filter fun entry => entry.2 ≠ some .failed).map Prod.fst

/-- A write that fails leaves the file between two lines; a call that is dropped does
so too, with its line whole if that is in the buffer; and no append is told of a
failure when its line is in the buffer already. -/
def Tidy (serde : Serde) (f : JsonlFile z) : JsonlMove → Prop
  | .poll fate => ∀ call, f.call = some call →
    (f.writer.flight = .failing → call.exchange ≠ none → call.phase ≠ .flush) ∧
      (f.writer.flight ≠ .failing → ∀ n, fate = some n → n < (f.writer.chunk call.phase).length →
        Lines.AtEnd (f.writer.device ++ (f.writer.chunk call.phase).take n))
  | .cancel => ∀ call, f.call = some call → Lines.AtEnd f.writer.device ∧
    ∀ e, call.exchange = some e → call.phase = .flush → jsonlLine serde e <:+ f.writer.buf
  | .reopen => ∀ call, f.call = some call → Lines.AtEnd f.writer.device
  | _ => True

/-- The file has whole lines, those of `done`, and the buffer the lines of `held`. -/
structure Whole (serde : Serde) (f : JsonlFile z) (done held : List RecordedExchange) : Prop where
  device : f.writer.device = done.flatMap (jsonlLine serde)
  buf : f.writer.buf = held.flatMap (jsonlLine serde)
  accepted : f.accepted.Sublist done
  kept : (done ++ held).Sublist f.notFailed

/-- While `e` is appended and no write has failed: the lines of `done` are followed by
what is on its way to the file, and that by the rest of the lines of `more` and `e`. -/
structure Underway (serde : Serde) (f : JsonlFile z) (e : RecordedExchange) (phase : BufWriter.Phase)
    (done more : List RecordedExchange) (front : Bytes) : Prop where
  steady : f.writer.flight ≠ .failing
  orderly : f.writer.Orderly phase
  device : f.writer.device = done.flatMap (jsonlLine serde) ++ front
  stream : front ++ (f.writer.buf ++ phase.rest) = (more ++ [e]).flatMap (jsonlLine serde)
  spill : ∀ data, phase = .spill data → front = [] ∧ data = jsonlLine serde e
  direct : ∀ rest, phase = .direct rest → rest <:+ jsonlLine serde e
  accepted : f.accepted.Sublist done
  kept : (done ++ more).Sublist f.notFailed

/-- While `e` is appended after a write that failed. -/
structure Failing (serde : Serde) (f : JsonlFile z) (e : RecordedExchange) (phase : BufWriter.Phase)
    (done held : List RecordedExchange) : Prop where
  failing : f.writer.flight = .failing
  device : f.writer.device = done.flatMap (jsonlLine serde)
  buf : phase ≠ .flush → f.writer.buf = held.flatMap (jsonlLine serde)
  line : phase = .flush → jsonlLine serde e <:+ f.writer.buf →
    f.writer.buf = (held ++ [e]).flatMap (jsonlLine serde)
  accepted : f.accepted.Sublist done
  kept : (done ++ held).Sublist f.notFailed

/-- What holds of the storage, whatever it is doing. -/
def Sound (serde : Serde) (f : JsonlFile z) : Prop :=
  match f.call with
  | none => ∃ done held, Whole serde f done held
  | some ⟨none, phase⟩ => (phase = .flush ∨ phase = .sync) ∧ ∃ done held, Whole serde f done held
  | some ⟨some e, phase⟩ => (∃ done more front, Underway serde f e phase done more front) ∨
      ∃ done held, Failing serde f e phase done held

section Log
variable {f : JsonlFile z} {e : RecordedExchange} {w : BufWriter z} {call : Option JsonlCall}

theorem accepted_snoc_ok : (⟨w, call, f.log ++ [(e, none)]⟩ : JsonlFile z).accepted = f.accepted ++ [e] := by
  simp [accepted]

theorem accepted_snoc_stopped (cause : BufWriter.Cause) :
    (⟨w, call, f.log ++ [(e, some cause)]⟩ : JsonlFile z).accepted = f.accepted := by
  simp [accepted]

theorem notFailed_snoc {kept : Option BufWriter.Cause} (returned : kept ≠ some .failed) :
    (⟨w, call, f.log ++ [(e, kept)]⟩ : JsonlFile z).notFailed = f.notFailed ++ [e] := by
  simp [notFailed, returned]

theorem notFailed_snoc_failed : (⟨w, call, f.log ++ [(e, some .failed)]⟩ : JsonlFile z).notFailed = f.notFailed := by
  simp [notFailed]

end Log

section Steps
variable {serde : Serde} (law : serde.Lawful) {f : JsonlFile z} {done held more : List RecordedExchange}
  {e : RecordedExchange} {phase : BufWriter.Phase} {front : Bytes}

include law in
theorem jsonlLine_whole (e : RecordedExchange) : ∃ text, jsonlLine serde e = text ++ [10] ∧ ∀ b ∈ text, b ≠ 10 := by
  refine ⟨_, rfl, ?_⟩
  rintro b member rfl
  exact absurd (Lines.encode_printable (law.printable _ (e.toJson_plain serde)) _ member) (by decide)

theorem jsonlLine_ne_nil (serde : Serde) (e : RecordedExchange) : jsonlLine serde e ≠ [] := by
  simp [jsonlLine]

include law in
/-- Where the file ends with a line, what went to it behind whole lines is whole lines. -/
theorem cut_at_end {items : List RecordedExchange} {rest : Bytes}
    (atEnd : Lines.AtEnd (done.flatMap (jsonlLine serde) ++ front))
    (stream : front ++ rest = items.flatMap (jsonlLine serde)) :
    ∃ before after, items = before ++ after ∧ front = before.flatMap (jsonlLine serde) ∧
      rest = after.flatMap (jsonlLine serde) := by
  have isFront : (items.flatMap (jsonlLine serde)).take front.length = front := by
    rw [← stream, List.take_left]
  have isRest : (items.flatMap (jsonlLine serde)).drop front.length = rest := by
    rw [← stream, List.drop_left]
  have ends : Lines.AtEnd ((items.flatMap (jsonlLine serde)).take front.length) := by
    rw [isFront]
    by_cases nothing : front = []
    · exact Or.inl nothing
    · rcases atEnd with both | feed
      · exact (nothing (List.append_eq_nil_iff.mp both).2).elim
      · exact Or.inr (by rwa [List.getLast?_append_of_ne_nil _ nothing] at feed)
  obtain ⟨before, after, split, took, left⟩ := Lines.cut_at_end (jsonlLine_whole law) items ends
  exact ⟨before, after, split, isFront.symm.trans took, isRest.symm.trans left⟩

/-- An append that takes the lock finds whole lines in the file and in the buffer. -/
theorem Whole.begins (whole : Whole serde f done held) (e : RecordedExchange) :
    Sound serde { f with
      writer := (f.writer.beginWrite (jsonlLine serde e)).2
      call := some ⟨some e, (f.writer.beginWrite (jsonlLine serde e)).1⟩ } := by
  obtain ⟨stream, orderly, device, flight⟩ := BufWriter.beginWrite_spec f.writer (jsonlLine serde e)
  have cases_ := BufWriter.beginWrite_cases f.writer (jsonlLine serde e)
  have some_ := jsonlLine_ne_nil serde e
  have lines : f.writer.buf ++ jsonlLine serde e = (held ++ [e]).flatMap (jsonlLine serde) := by
    rw [whole.buf, List.flatMap_append, List.flatMap_singleton]
  by_cases failing : f.writer.flight = .failing
  · refine Or.inr ⟨done, held, flight.trans failing, device.trans whole.device, fun notFlush => ?_, fun isFlush _ => ?_,
      whole.accepted, whole.kept⟩
    · rcases cases_ with ⟨_, nothing, _⟩ | ⟨_, _, _, same⟩ | ⟨_, _, _, same⟩ | ⟨isFlush, _⟩
      · exact (some_ nothing).elim
      · rw [same, whole.buf]
      · rw [same, whole.buf]
      · exact (notFlush isFlush).elim
    · have isFlush : (f.writer.beginWrite (jsonlLine serde e)).1 = .flush := isFlush
      rw [isFlush, BufWriter.Phase.rest, List.append_nil] at stream
      exact stream.trans lines
  · refine Or.inl ⟨done, held, [], flight ▸ failing, orderly, ?_, ?_, fun data isSpill => ⟨rfl, ?_⟩,
      fun rest isDirect => ?_, whole.accepted, whole.kept⟩
    · rw [List.append_nil, device, whole.device]
    · rw [List.nil_append, stream, lines]
    · have isSpill : (f.writer.beginWrite (jsonlLine serde e)).1 = .spill data := isSpill
      rcases cases_ with ⟨other, _⟩ | ⟨same, _⟩ | ⟨other, _⟩ | ⟨other, _⟩
      · simp [other] at isSpill
      · exact (BufWriter.Phase.spill.inj (same.symm.trans isSpill)).symm
      · simp [other] at isSpill
      · simp [other] at isSpill
    · have isDirect : (f.writer.beginWrite (jsonlLine serde e)).1 = .direct rest := isDirect
      rcases cases_ with ⟨other, _⟩ | ⟨other, _⟩ | ⟨same, _⟩ | ⟨other, _⟩
      · simp [other] at isDirect
      · simp [other] at isDirect
      · rw [← BufWriter.Phase.direct.inj (same.symm.trans isDirect)]
      · simp [other] at isDirect

/-- An append that has handed everything over, and whose last write got through. -/
theorem Underway.ends (under : Underway serde f e .sync done more front) (w : BufWriter z)
    (device : w.device = f.writer.device) (buf : w.buf = f.writer.buf) :
    Whole serde ⟨w, none, f.log ++ [(e, none)]⟩ (done ++ (more ++ [e])) [] := by
  have empty : f.writer.buf = [] := under.orderly
  have stream := under.stream
  rw [empty, BufWriter.Phase.rest, List.append_nil, List.append_nil] at stream
  refine ⟨?_, by rw [buf, empty, List.flatMap_nil], ?_, ?_⟩
  · rw [device, under.device, stream, ← List.flatMap_append]
  · rw [accepted_snoc_ok, ← List.append_assoc]
    exact (under.accepted.trans (List.sublist_append_left _ _)).append (List.Sublist.refl _)
  · rw [notFailed_snoc (by simp), List.append_nil, ← List.append_assoc]
    exact under.kept.append (List.Sublist.refl _)

/-- What is handed directly to the file belongs to the line. -/
theorem Underway.direct_next (under : Underway serde f e phase done more front) {phase' : BufWriter.Phase}
    {w' : BufWriter z} (orderly' : w'.Orderly phase')
    (stream' : f.writer.chunk phase ++ (w'.buf ++ phase'.rest) = f.writer.buf ++ phase.rest) (rest : Bytes)
    (isDirect : phase' = .direct rest) : rest <:+ jsonlLine serde e := by
  subst isDirect
  rw [orderly'.2, List.nil_append] at stream'
  cases phase with
  | spill data =>
    have same : rest = data := List.append_cancel_left stream'
    rw [same, (under.spill data rfl).2]
  | direct before =>
    rw [under.orderly.2, List.nil_append] at stream'
    exact List.IsSuffix.trans ⟨_, stream'⟩ (under.direct before rfl)
  | flush =>
    have nothing : rest = [] := List.append_cancel_left stream'
    exact (orderly'.1 nothing).elim
  | sync =>
    have nothing : rest = [] := by
      have empty : f.writer.buf = [] := under.orderly
      rw [empty] at stream'
      exact stream'
    exact (orderly'.1 nothing).elim

/-- A line that is in the buffer after a chunk went to the file is all there is. -/
theorem Underway.flush_next (under : Underway serde f e phase done more front) {w' : BufWriter z}
    (stream' : f.writer.chunk phase ++ (w'.buf ++ []) = f.writer.buf ++ phase.rest)
    (some_ : f.writer.chunk phase ≠ []) (line : jsonlLine serde e <:+ w'.buf) : w'.buf = jsonlLine serde e := by
  rw [List.append_nil] at stream'
  cases phase with
  | spill data => rw [← (under.spill data rfl).2, List.append_cancel_left stream', BufWriter.Phase.rest]
  | direct rest =>
    rw [under.orderly.2, List.nil_append] at stream'
    have longer := congrArg List.length stream'
    have within := (under.direct rest rfl).length_le
    have whole := line.length_le
    have positive := List.length_pos_of_ne_nil some_
    rw [List.length_append] at longer
    simp only [BufWriter.Phase.rest] at longer
    omega
  | flush =>
    have nothing : w'.buf = [] := List.append_cancel_left stream'
    rw [nothing] at line
    exact (jsonlLine_ne_nil serde e (List.suffix_nil.mp line)).elim
  | sync => exact (some_ rfl).elim

include law in
/-- An append that is let go on while no write has failed. -/
theorem Underway.turns (under : Underway serde f e phase done more front) (open_ : phase ≠ .sync) {fate : Option Nat}
    (tidy : ∀ n, fate = some n → n < (f.writer.chunk phase).length →
      Lines.AtEnd (f.writer.device ++ (f.writer.chunk phase).take n)) :
    ∃ phase' w', f.writer.turn fate phase = .waits phase' w' ∧ Sound serde ⟨w', some ⟨some e, phase'⟩, f.log⟩ := by
  obtain ⟨phase', w', turned, orderly', stream', _, noSpill, flight', device'⟩ :=
    BufWriter.turn_waits fate under.steady under.orderly open_
  refine ⟨phase', w', turned, ?_⟩
  have stream : front ++ f.writer.chunk phase ++ (w'.buf ++ phase'.rest) = (more ++ [e]).flatMap (jsonlLine serde) := by
    rw [List.append_assoc, stream', under.stream]
  rcases BufWriter.taken_cases f.writer (f.writer.chunk phase) fate with ⟨landing, device⟩ |
    ⟨n, isFate, short, failing, device⟩
  · refine Or.inl ⟨done, more, front ++ f.writer.chunk phase, ?_, orderly', ?_, stream,
      fun data isSpill => (noSpill data isSpill).elim, under.direct_next orderly' stream', under.accepted, under.kept⟩
    · show w'.flight ≠ .failing
      rw [flight', landing]
      decide
    · show w'.device = _
      rw [device', device, under.device, List.append_assoc]
  · -- What landed of the chunk ends with a line, so the rest has the line of `e`.
    have atEnd := tidy n isFate short
    rw [under.device, List.append_assoc] at atEnd
    have cut : (front ++ (f.writer.chunk phase).take n) ++ ((f.writer.chunk phase).drop n ++ (w'.buf ++ phase'.rest)) =
        (more ++ [e]).flatMap (jsonlLine serde) := by
      rw [← stream]
      simp only [List.append_assoc]
      rw [← List.append_assoc ((f.writer.chunk phase).take n), List.take_append_drop]
    obtain ⟨before, after, split, landed, lost⟩ := cut_at_end law atEnd cut
    obtain ⟨rest, isAfter, isMore⟩ : ∃ rest, after = rest ++ [e] ∧ more = before ++ rest := by
      rcases List.eq_nil_or_concat' after with nothing | ⟨rest, last, isAfter⟩
      · rw [nothing, List.flatMap_nil] at lost
        have gone := List.drop_eq_nil_iff.mp (List.append_eq_nil_iff.mp lost).1
        omega
      · rw [isAfter, ← List.append_assoc] at split
        obtain ⟨isMore, isLast⟩ := List.append_inj' split rfl
        exact ⟨rest, by rw [isAfter, isLast], isMore⟩
    refine Or.inr ⟨done ++ before, [], flight'.trans failing, ?_, fun notFlush => ?_, fun isFlush line => ?_,
      under.accepted.trans (List.sublist_append_left _ _), ?_⟩
    · show w'.device = _
      rw [device', device, under.device, List.append_assoc, landed, List.flatMap_append]
    · show w'.buf = _
      cases phase' with
      | spill data => exact (noSpill data rfl).elim
      | direct rest => exact orderly'.2
      | flush => exact (notFlush rfl).elim
      | sync => exact orderly'
    · subst isFlush
      have some_ : f.writer.chunk phase ≠ [] := by
        intro nothing
        rw [nothing] at short
        simp at short
      rw [under.flush_next stream' some_ line]
      simp
    · rw [List.append_nil]
      refine List.Sublist.trans ?_ under.kept
      rw [isMore, ← List.append_assoc]
      exact List.sublist_append_left _ _

/-- An append that is told of a failure before its line is in the buffer. -/
theorem Failing.told (failed : Failing serde f e phase done held) (notFlush : phase ≠ .flush) {w : BufWriter z}
    (device : w.device = f.writer.device) (buf : w.buf = f.writer.buf) :
    Whole serde ⟨w, none, f.log ++ [(e, some .failed)]⟩ done held := by
  refine ⟨device.trans failed.device, buf.trans (failed.buf notFlush), ?_, ?_⟩
  · rw [accepted_snoc_stopped]
    exact failed.accepted
  · rw [notFailed_snoc_failed]
    exact failed.kept

include law in
/-- An append that is dropped with the file between two lines. -/
theorem Underway.dropped (under : Underway serde f e phase done more front) (atEnd : Lines.AtEnd f.writer.device) :
    ∃ done' held', Whole serde ⟨f.writer, none, f.log ++ [(e, some .cancelled)]⟩ done' held' := by
  rw [under.device] at atEnd
  obtain ⟨before, after, split, landed, left⟩ := cut_at_end law atEnd under.stream
  have accepted : (⟨f.writer, none, f.log ++ [(e, some .cancelled)]⟩ : JsonlFile z).accepted.Sublist (done ++ before) := by
    rw [accepted_snoc_stopped]
    exact under.accepted.trans (List.sublist_append_left _ _)
  have all : (done ++ (more ++ [e])).Sublist
      (⟨f.writer, none, f.log ++ [(e, some .cancelled)]⟩ : JsonlFile z).notFailed := by
    rw [notFailed_snoc (by simp), ← List.append_assoc]
    exact under.kept.append (List.Sublist.refl _)
  have device : f.writer.device = (done ++ before).flatMap (jsonlLine serde) := by
    rw [under.device, landed, List.flatMap_append]
  have inBuffer : phase.rest = [] →
      ∃ done' held', Whole serde ⟨f.writer, none, f.log ++ [(e, some .cancelled)]⟩ done' held' := by
    intro nothing
    rw [nothing, List.append_nil] at left
    exact ⟨done ++ before, after, device, left, accepted, by rwa [List.append_assoc, ← split]⟩
  cases phase with
  | flush => exact inBuffer rfl
  | sync => exact inBuffer rfl
  | direct rest =>
    refine ⟨done ++ before, [], device, under.orderly.2, accepted, List.Sublist.trans ?_ all⟩
    rw [List.append_nil, split, ← List.append_assoc]
    exact List.sublist_append_left _ _
  | spill data =>
    obtain ⟨nothing, isLine⟩ := under.spill data rfl
    have stream := under.stream
    rw [nothing, List.nil_append, BufWriter.Phase.rest, isLine, List.flatMap_append, List.flatMap_singleton] at stream
    refine ⟨done, more, ?_, List.append_cancel_right stream, ?_, List.Sublist.trans ?_ all⟩
    · rw [under.device, nothing, List.append_nil]
    · rw [accepted_snoc_stopped]
      exact under.accepted
    · rw [← List.append_assoc]
      exact List.sublist_append_left _ _

theorem Failing.dropped (failed : Failing serde f e phase done held)
    (line : phase = .flush → jsonlLine serde e <:+ f.writer.buf) :
    ∃ held', Whole serde ⟨f.writer, none, f.log ++ [(e, some .cancelled)]⟩ done held' := by
  have accepted : (⟨f.writer, none, f.log ++ [(e, some .cancelled)]⟩ : JsonlFile z).accepted.Sublist done := by
    rw [accepted_snoc_stopped]
    exact failed.accepted
  have all : (done ++ held ++ [e]).Sublist
      (⟨f.writer, none, f.log ++ [(e, some .cancelled)]⟩ : JsonlFile z).notFailed := by
    rw [notFailed_snoc (by simp)]
    exact failed.kept.append (List.Sublist.refl _)
  by_cases isFlush : phase = .flush
  · exact ⟨held ++ [e], failed.device, failed.line isFlush (line isFlush), accepted, by rwa [← List.append_assoc]⟩
  · exact ⟨held, failed.device, failed.buf isFlush, accepted, (List.sublist_append_left _ _).trans all⟩

theorem Whole.reopened (whole : Whole serde f done held) : Whole serde (⟨.onto f.writer.device, none, f.log⟩ : JsonlFile z) done [] := by
  refine ⟨whole.device, rfl, whole.accepted, ?_⟩
  rw [List.append_nil]
  exact (List.sublist_append_left _ _).trans whole.kept

theorem Failing.reopened (failed : Failing serde f e phase done held) :
    Whole serde (⟨.onto f.writer.device, none, f.log ++ [(e, some .cancelled)]⟩ : JsonlFile z) done [] := by
  refine ⟨failed.device, rfl, ?_, ?_⟩
  · rw [accepted_snoc_stopped]
    exact failed.accepted
  · rw [List.append_nil, notFailed_snoc (by simp)]
    exact ((List.sublist_append_left _ _).trans failed.kept).trans (List.sublist_append_left _ _)

theorem Whole.givenUp (whole : Whole serde f done held) (e : RecordedExchange) :
    Whole serde { f with log := f.log ++ [(e, some .cancelled)] } done held := by
  refine ⟨whole.device, whole.buf, ?_, ?_⟩
  · rw [accepted_snoc_stopped]
    exact whole.accepted
  · rw [notFailed_snoc (by simp)]
    exact whole.kept.trans (List.sublist_append_left _ _)

theorem Underway.givenUp (under : Underway serde f e phase done more front) (e' : RecordedExchange) :
    Underway serde { f with log := f.log ++ [(e', some .cancelled)] } e phase done more front := by
  refine ⟨under.steady, under.orderly, under.device, under.stream, under.spill, under.direct, ?_, ?_⟩
  · rw [accepted_snoc_stopped]
    exact under.accepted
  · rw [notFailed_snoc (by simp)]
    exact under.kept.trans (List.sublist_append_left _ _)

theorem Failing.givenUp (failed : Failing serde f e phase done held) (e' : RecordedExchange) :
    Failing serde { f with log := f.log ++ [(e', some .cancelled)] } e phase done held := by
  refine ⟨failed.failing, failed.device, failed.buf, failed.line, ?_, ?_⟩
  · rw [accepted_snoc_stopped]
    exact failed.accepted
  · rw [notFailed_snoc (by simp)]
    exact failed.kept.trans (List.sublist_append_left _ _)

include law in
/-- A `flush` that hands the buffer over: what lands of it are whole lines. -/
theorem Whole.flushes (whole : Whole serde f done held) (steady : f.writer.flight ≠ .failing) {fate : Option Nat}
    (tidy : ∀ n, fate = some n → n < (f.writer.chunk .flush).length →
      Lines.AtEnd (f.writer.device ++ (f.writer.chunk .flush).take n)) :
    ∃ w', f.writer.turn fate .flush = .waits .sync w' ∧
      ∃ done', Whole serde ⟨w', some ⟨none, .sync⟩, f.log⟩ done' [] := by
  refine ⟨(f.writer.taken f.writer.buf fate).emptied, if_neg steady, ?_⟩
  rcases BufWriter.taken_cases f.writer f.writer.buf fate with ⟨_, device⟩ | ⟨n, isFate, short, _, device⟩
  · refine ⟨done ++ held, ?_, rfl, whole.accepted.trans (List.sublist_append_left _ _), ?_⟩
    · show (f.writer.taken f.writer.buf fate).device = _
      rw [device, whole.device, whole.buf, List.flatMap_append]
    · rw [List.append_nil]
      exact whole.kept
  · have atEnd := tidy n isFate short
    rw [whole.device] at atEnd
    obtain ⟨before, after, split, landed, _⟩ := cut_at_end law atEnd
      (show f.writer.buf.take n ++ f.writer.buf.drop n = held.flatMap (jsonlLine serde) by
        rw [List.take_append_drop, whole.buf])
    refine ⟨done ++ before, ?_, rfl, whole.accepted.trans (List.sublist_append_left _ _), ?_⟩
    · show (f.writer.taken f.writer.buf fate).device = _
      have landed : f.writer.buf.take n = before.flatMap (jsonlLine serde) := landed
      rw [device, whole.device, landed, List.flatMap_append]
    · rw [List.append_nil]
      refine List.Sublist.trans ?_ whole.kept
      rw [split, ← List.append_assoc]
      exact List.sublist_append_left _ _

theorem Whole.call (whole : Whole serde f done held) (call : Option JsonlCall) :
    Whole serde { f with call := call } done held := ⟨whole.device, whole.buf, whole.accepted, whole.kept⟩

theorem Whole.returns (whole : Whole serde f done held) :
    Whole serde { f with writer := { f.writer with flight := .idle }, call := none } done held :=
  ⟨whole.device, whole.buf, whole.accepted, whole.kept⟩

include law in
theorem Sound.poll (sound : Sound serde f) (fate : Option Nat) (tidy : Tidy serde f (.poll fate)) :
    Sound serde (step serde f (.poll fate)) := by
  obtain ⟨w, call, log⟩ := f
  cases call with
  | none => exact sound
  | some call =>
    obtain ⟨exchange, phase⟩ := call
    obtain ⟨told, lands⟩ := tidy _ rfl
    cases exchange with
    | none =>
      obtain ⟨phases, done, held, whole⟩ := sound
      by_cases failing : w.flight = .failing
      · simp only [step, BufWriter.turn_of_failing failing, ended, Option.map_none, Option.toList_none, List.append_nil]
        exact ⟨done, held, whole.returns⟩
      · rcases phases with rfl | rfl
        · obtain ⟨w', turned, done', whole'⟩ := whole.flushes law failing (lands failing)
          simp only [step, turned]
          exact ⟨Or.inr rfl, done', [], whole'⟩
        · simp only [step, BufWriter.turn_sync failing, ended, Option.map_none, Option.toList_none, List.append_nil]
          exact ⟨done, held, whole.returns⟩
    | some e =>
      rcases sound with ⟨done, more, front, under⟩ | ⟨done, held, failed⟩
      · by_cases last : phase = .sync
        · subst last
          simp only [step, BufWriter.turn_sync under.steady]
          exact ⟨_, _, under.ends _ rfl rfl⟩
        · obtain ⟨phase', w', turned, next⟩ := under.turns law last (lands under.steady)
          simp only [step, turned]
          exact next
      · simp only [step, BufWriter.turn_of_failing failed.failing]
        exact ⟨_, _, failed.told (told failed.failing (by simp)) rfl rfl⟩

include law in
theorem Sound.step (sound : Sound serde f) (move : JsonlMove) (tidy : Tidy serde f move) :
    Sound serde (f.step serde move) := by
  cases move with
  | poll fate => exact sound.poll law fate tidy
  | append e =>
    obtain ⟨w, call, log⟩ := f
    cases call with
    | some call => exact sound
    | none =>
      obtain ⟨done, held, whole⟩ := sound
      exact whole.begins e
  | flush =>
    obtain ⟨w, call, log⟩ := f
    cases call with
    | some call => exact sound
    | none =>
      obtain ⟨done, held, whole⟩ := sound
      by_cases empty : w.buf = []
      · simp only [JsonlFile.step, BufWriter.beginFlush, if_pos empty]
        exact ⟨Or.inr rfl, done, held, whole.call _⟩
      · simp only [JsonlFile.step, BufWriter.beginFlush, if_neg empty]
        exact ⟨Or.inl rfl, done, held, whole.call _⟩
  | giveUp e =>
    obtain ⟨w, call, log⟩ := f
    rcases call with _ | ⟨_ | e', phase⟩
    · obtain ⟨done, held, whole⟩ := sound
      exact ⟨done, held, whole.givenUp e⟩
    · obtain ⟨phases, done, held, whole⟩ := sound
      exact ⟨phases, done, held, whole.givenUp e⟩
    · rcases sound with ⟨done, more, front, under⟩ | ⟨done, held, failed⟩
      · exact Or.inl ⟨done, more, front, under.givenUp e⟩
      · exact Or.inr ⟨done, held, failed.givenUp e⟩
  | cancel =>
    obtain ⟨w, call, log⟩ := f
    rcases call with _ | ⟨_ | e, phase⟩
    · exact sound
    · obtain ⟨_, done, held, whole⟩ := sound
      simp only [JsonlFile.step, ended, Option.map_none, Option.toList_none, List.append_nil]
      exact ⟨done, held, whole.call none⟩
    · obtain ⟨atEnd, line⟩ := tidy _ rfl
      rcases sound with ⟨done, more, front, under⟩ | ⟨done, held, failed⟩
      · exact under.dropped law atEnd
      · exact ⟨done, failed.dropped (line e rfl)⟩
  | reopen =>
    obtain ⟨w, call, log⟩ := f
    rcases call with _ | ⟨_ | e, phase⟩
    · obtain ⟨done, held, whole⟩ := sound
      exact ⟨done, [], whole.reopened⟩
    · obtain ⟨_, done, held, whole⟩ := sound
      simp only [JsonlFile.step, ended, Option.map_none, Option.toList_none, List.append_nil]
      exact ⟨done, [], whole.reopened⟩
    · have atEnd := tidy _ rfl
      rcases sound with ⟨done, more, front, under⟩ | ⟨done, held, failed⟩
      · obtain ⟨done', held', whole⟩ := under.dropped law atEnd
        exact ⟨done', [], whole.reopened⟩
      · exact ⟨done, [], failed.reopened⟩

variable (z) in
theorem sound_opened (serde : Serde) : Sound serde (opened [] : JsonlFile z) :=
  ⟨[], [], rfl, rfl, List.Sublist.refl _, List.Sublist.refl _⟩

include law in
theorem load_of_lines {written : List RecordedExchange} (lines : f.writer.device = written.flatMap (jsonlLine serde)) :
    f.load serde = .ok (written.map RecordedExchange.rounded) := by
  rw [JsonlFile.load, lines]
  exact loadLines_written law written 0

end Steps

section Undisturbed
variable {serde : Serde}

theorem exec_polls_quiet {f : JsonlFile z} (quiet : f.call = none) (n : Nat) :
    Execution.exec (step serde) f (List.replicate n (.poll none)) = f := by
  induction n with
  | zero => rfl
  | succ n ih =>
    have still : step serde f (.poll none) = f := by
      simp only [step, quiet]
    rw [List.replicate_succ, Execution.exec_cons, still, ih]

variable (serde) in
/-- An append that is let go on while all writes get through puts all that it has left
into the file. -/
theorem exec_polls {w : BufWriter z} {phase : BufWriter.Phase} (steady : w.flight ≠ .failing) (orderly : w.Orderly phase)
    (e : RecordedExchange) (log : List (RecordedExchange × Option BufWriter.Cause)) {n : Nat} (enough : phase.weight ≤ n) :
    ∃ w', Execution.exec (step serde) ⟨w, some ⟨some e, phase⟩, log⟩ (List.replicate n (.poll none)) =
        ⟨w', none, log ++ [(e, none)]⟩ ∧
      w'.device = w.device ++ (w.buf ++ phase.rest) ∧ w'.buf = [] ∧ w'.flight = .idle := by
  induction n generalizing w phase with
  | zero => cases phase <;> simp [BufWriter.Phase.weight] at enough
  | succ n ih =>
    rw [List.replicate_succ, Execution.exec_cons]
    by_cases last : phase = .sync
    · subst last
      have empty : w.buf = [] := orderly
      have ends : step serde ⟨w, some ⟨some e, .sync⟩, log⟩ (.poll none) =
          ⟨{ w with flight := .idle }, none, log ++ [(e, none)]⟩ := by
        simp only [step, BufWriter.turn_sync steady]
        rfl
      rw [ends, exec_polls_quiet rfl]
      exact ⟨_, rfl, by simp [empty, BufWriter.Phase.rest], empty, rfl⟩
    · obtain ⟨phase', w', turned, orderly', stream, lighter, _, flight, device⟩ :=
        BufWriter.turn_waits none steady orderly last
      have goes : step serde ⟨w, some ⟨some e, phase⟩, log⟩ (.poll none) = ⟨w', some ⟨some e, phase'⟩, log⟩ := by
        simp only [step, turned]
      have landing : w'.flight ≠ .failing := by
        rw [flight]
        simp [BufWriter.taken]
      obtain ⟨w'', ran, device', empty, idle⟩ := ih landing orderly' (by omega)
      rw [goes]
      refine ⟨w'', ran, ?_, empty, idle⟩
      rw [device', device, ← stream]
      simp [BufWriter.taken]

/-- The turns of an append that is not disturbed. -/
def undisturbed (serde : Serde) (e : RecordedExchange) (more : Nat) : List JsonlMove :=
  .append e :: List.replicate ((jsonlLine serde e).length + 3 + more) (.poll none)

variable (serde) in
theorem exec_undisturbed {f : JsonlFile z} (quiet : f.call = none) (steady : f.writer.flight ≠ .failing)
    (e : RecordedExchange) (more : Nat) :
    ∃ w', Execution.exec (step serde) f (undisturbed serde e more) = ⟨w', none, f.log ++ [(e, none)]⟩ ∧
      w'.device = f.writer.device ++ (f.writer.buf ++ jsonlLine serde e) ∧ w'.buf = [] ∧ w'.flight = .idle := by
  obtain ⟨stream, orderly, device, flight⟩ := BufWriter.beginWrite_spec f.writer (jsonlLine serde e)
  have weight := BufWriter.beginWrite_weight f.writer (jsonlLine serde e)
  have begins : step serde f (.append e) = ⟨(f.writer.beginWrite (jsonlLine serde e)).2,
      some ⟨some e, (f.writer.beginWrite (jsonlLine serde e)).1⟩, f.log⟩ := by
    simp only [step, quiet]
  obtain ⟨w', ran, device', empty, idle⟩ := exec_polls serde (flight ▸ steady) orderly e f.log
    (n := (jsonlLine serde e).length + 3 + more) (by omega)
  refine ⟨w', ?_, ?_, empty, idle⟩
  · rw [undisturbed, Execution.exec_cons, begins, ran]
  · rw [device', device, stream]

end Undisturbed

/-- A short line goes to the file with the flush, which does not see its write fail. -/
theorem refused_turns {e : RecordedExchange} {serde : Serde} (short : (jsonlLine serde e).length < z.cap) {n : Nat}
    (inside : n < (jsonlLine serde e).length) :
    ∃ w, step serde (opened [] : JsonlFile z) (.append e) = ⟨w, some ⟨some e, .flush⟩, []⟩ ∧ w.device = [] ∧
      w.flight = .idle ∧ step serde ⟨w, some ⟨some e, .flush⟩, []⟩ (.poll (some n)) =
        ⟨⟨(jsonlLine serde e).take n, .failing, [], Nat.zero_le _⟩, some ⟨some e, .sync⟩, []⟩ := by
  have phase := BufWriter.beginWrite_short (w := (.onto [] : BufWriter z)) rfl (jsonlLine_ne_nil serde e) short
  obtain ⟨stream, _, device, flight⟩ := BufWriter.beginWrite_spec (.onto [] : BufWriter z) (jsonlLine serde e)
  rw [phase, BufWriter.Phase.rest, List.append_nil] at stream
  have begins : step serde (opened [] : JsonlFile z) (.append e) =
      ⟨((.onto [] : BufWriter z).beginWrite (jsonlLine serde e)).2, some ⟨some e, .flush⟩, []⟩ := by
    simp only [step, opened, phase]
  generalize ((.onto [] : BufWriter z).beginWrite (jsonlLine serde e)).2 = w at stream device flight begins
  have buf : w.buf = jsonlLine serde e := stream
  have device : w.device = [] := device
  have flight : w.flight = .idle := flight
  refine ⟨w, begins, device, flight, ?_⟩
  have steady : w.flight ≠ .failing := by
    rw [flight]
    exact BufWriter.Flight.noConfusion
  simp only [step, BufWriter.turn, if_neg steady, BufWriter.chunk, BufWriter.taken, buf, if_pos inside, device,
    List.nil_append, BufWriter.emptied]

/-- A short line whose write fails after `n` bytes leaves these in the file. -/
theorem exec_refused_append {e : RecordedExchange} {serde : Serde} (short : (jsonlLine serde e).length < z.cap) {n : Nat}
    (inside : n < (jsonlLine serde e).length) :
    Execution.exec (step serde) (opened [] : JsonlFile z) [.append e, .poll (some n), .poll none] =
      ⟨.onto ((jsonlLine serde e).take n), none, [(e, some .failed)]⟩ := by
  obtain ⟨w, begins, _, _, fails⟩ := refused_turns short inside
  rw [Execution.exec_cons, begins, Execution.exec_cons, fails]
  rfl

def sampleExchange (message : String) : RecordedExchange :=
  ⟨referenceStamp.id, some "up", referenceStamp.timestamp, 1500000, ⟨"GET", "/a", [], [], ""⟩, .error message, .empty⟩

/-- The buffer of a `BufWriter::new`, and what a `tokio` file takes at a time. -/
def standard : BufWriter.Sizes := ⟨8192, 2097152, by decide, by decide⟩

theorem sample_short : (jsonlLine referenceSerde (sampleExchange "a")).length < standard.cap := by
  decide +kernel

/-- Whatever succeeds, fails or is cancelled, in any order of the turns: where every move
is tidy, the file loads between two calls, has every accepted exchange in order, and
none whose append failed. -/
theorem load_of_tidy {serde : Serde} (law : serde.Lawful) (z : BufWriter.Sizes) {moves : List JsonlMove}
    (tidy : Execution.Along (step serde) (Tidy serde) (opened [] : JsonlFile z) moves)
    (quiet : (Execution.exec (step serde) (opened [] : JsonlFile z) moves).call = none) :
    let f := Execution.exec (step serde) (opened [] : JsonlFile z) moves
    ∃ loaded, f.load serde = .ok loaded ∧ (f.accepted.map RecordedExchange.rounded).Sublist loaded ∧
      loaded.Sublist (f.notFailed.map RecordedExchange.rounded) := by
  intro f
  have sound : Sound serde f :=
    Execution.exec_invariant_along (step serde) (fun f move tidy sound => sound.step law move tidy)
      (sound_opened z serde) tidy
  rw [Sound, quiet] at sound
  obtain ⟨done, held, whole⟩ := sound
  refine ⟨_, load_of_lines law whole.device, whole.accepted.map _, ?_⟩
  exact ((List.sublist_append_left done held).trans whole.kept).map _

/-- An append whose write fails before a byte is written leaves nothing to load. -/
theorem load_of_tidy_refused :
    (Execution.exec (step referenceSerde) (opened [] : JsonlFile standard)
      [.append (sampleExchange "a"), .poll (some 0), .poll none]).load referenceSerde = .ok [] := by
  have inside : 0 < (jsonlLine referenceSerde (sampleExchange "a")).length :=
    List.length_pos_of_ne_nil (jsonlLine_ne_nil _ _)
  obtain ⟨w, begins, device, flight, fails⟩ := refused_turns sample_short inside
  have run := exec_refused_append (e := sampleExchange "a") sample_short inside
  have tidy : Execution.Along (step referenceSerde) (Tidy referenceSerde) (opened [] : JsonlFile standard)
      [.append (sampleExchange "a"), .poll (some 0), .poll none] := by
    refine ⟨trivial, ?_, ?_, trivial⟩
    · rw [begins]
      rintro call isCall
      refine ⟨fun failing => absurd (flight.symm.trans failing) BufWriter.Flight.noConfusion, ?_⟩
      rintro _ n ⟨⟩ _
      exact Or.inl (by rw [device, List.take_zero, List.append_nil])
    · rw [begins, fails]
      rintro call ⟨⟩
      exact ⟨fun _ _ => BufWriter.Phase.noConfusion, fun steady => absurd rfl steady⟩
  obtain ⟨loaded, isLoaded, _, among⟩ := load_of_tidy referenceSerde_lawful standard tidy (by rw [run])
  rw [run] at among
  rw [isLoaded, List.sublist_nil.mp among]

/-- A file whose only line is no JSON. -/
theorem load_of_refused {serde : Serde} {line : String} (printable : ∀ c ∈ line.toList, 32 ≤ c.toNat)
    (solid : isBlank line = false) (refused : serde.parse line = none) {f : JsonlFile z}
    (file : f.writer.device = Lines.encode line ++ [10]) : ∃ err, f.load serde = .error err := by
  have bytes := Lines.encode_printable printable
  have unbroken : ∀ b ∈ Lines.encode line, b ≠ 10 := by
    rintro b member rfl
    exact absurd (bytes _ member) (by decide)
  have noReturn : ∀ b ∈ Lines.encode line, b ≠ 13 := by
    rintro b member rfl
    exact absurd (bytes _ member) (by decide)
  rw [load, file]
  show ∃ err, loadLines serde 0 (Lines.pieces _) = _
  rw [Lines.pieces_line unbroken [], loadLines, Lines.chomp_line noReturn, Lines.decode_encode]
  simp only [solid, Bool.false_eq_true, if_false, parseNdjsonLine, refused, Option.bind_none]
  exact ⟨_, rfl⟩

/-- What the first 50 bytes of the line of `a` are. -/
def tornText : String := "\x7b\"id\":\"67e55044-10b1-426f-9247-bb680e5fe0c8\",\"upst"

/-- The line that is glued to it is no JSON. -/
theorem torn_refused :
    let line := tornText ++ referenceSerde.render ((sampleExchange "b").toJson referenceSerde)
    (∀ c ∈ line.toList, 32 ≤ c.toNat) ∧ isBlank line = false ∧ referenceSerde.parse line = none := by
  intro line
  obtain ⟨rest, begins⟩ : ∃ rest, (referenceSerde.render ((sampleExchange "b").toJson referenceSerde)).toList =
      '{' :: '"' :: 'i' :: rest := ⟨_, String.toList_ofList⟩
  have chars : line.toList = '{' :: (Json.renderString "id" ++ ':' :: Json.renderValue (.str referenceStamp.id.text) ++
      ',' :: (Json.renderString "upst\x7b" ++ 'i' :: rest)) := by
    rw [String.toList_append, begins]
    rfl
  refine ⟨fun c member => ?_, ?_, ?_⟩
  · have front : (tornText.toList.all fun c => 32 ≤ c.toNat) = true := by decide +kernel
    rcases List.mem_append.mp (String.toList_append ▸ member) with torn | other
    · exact of_decide_eq_true (List.all_eq_true.mp front c torn)
    · exact referenceSerde_lawful.printable _ ((sampleExchange "b").toJson_plain referenceSerde) c other
  · rw [isBlank, chars]
    rfl
  · have parsed := Json.parse_eq_none_of_name (.str referenceStamp.id.text : Json.Plain false 0 _) "id" "upst\x7b"
      (by decide : Json.isSpace 'i' = false) (by decide) rest
    rw [← chars, String.ofList_toList] at parsed
    exact parsed

/-- Half a line is in the file when the next append is accepted behind it. -/
theorem torn_line_stops_load :
    let f := Execution.exec (step referenceSerde) (opened [] : JsonlFile standard)
      ([.append (sampleExchange "a"), .poll (some 50), .poll none] ++ undisturbed referenceSerde (sampleExchange "b") 0)
    f.call = none ∧ f.log = [(sampleExchange "a", some .failed), (sampleExchange "b", none)] ∧
      ∃ err, f.load referenceSerde = .error err := by
  intro f
  have inside : 50 < (jsonlLine referenceSerde (sampleExchange "a")).length := by decide +kernel
  have torn : (jsonlLine referenceSerde (sampleExchange "a")).take 50 = Lines.encode tornText := by decide +kernel
  obtain ⟨w, ran, device, _⟩ := exec_undisturbed referenceSerde
    (f := (⟨.onto (Lines.encode tornText), none, [(sampleExchange "a", some .failed)]⟩ : JsonlFile standard)) rfl
    BufWriter.Flight.noConfusion (sampleExchange "b") 0
  have isRun : f = ⟨w, none, [(sampleExchange "a", some .failed), (sampleExchange "b", none)]⟩ := by
    show Execution.exec _ _ _ = _
    rw [Execution.exec_append, exec_refused_append sample_short inside, torn, ran]
    rfl
  obtain ⟨printable, solid, refused⟩ := torn_refused
  simp only [BufWriter.onto, List.nil_append] at device
  have line : w.device =
      Lines.encode (tornText ++ referenceSerde.render ((sampleExchange "b").toJson referenceSerde)) ++ [10] := by
    rw [device, Lines.encode_append, jsonlLine, List.append_assoc]
  rw [isRun]
  exact ⟨rfl, rfl, load_of_refused printable solid refused line⟩

section RoundTrip
variable {serde : Serde}

theorem asMillis_fromMillis_asMillis (d : Duration) : asMillis (fromMillis (asMillis d)) = asMillis d := by
  have small := asMillis_lt d
  rw [asMillis, fromMillis, Nat.mul_div_cancel _ (by decide : 0 < 1000000)]
  omega

/-- The milliseconds are all a line has of the duration. -/
theorem jsonlLine_rounded (e : RecordedExchange) : jsonlLine serde e.rounded = jsonlLine serde e := by
  have same : e.rounded.toJson serde = e.toJson serde := by
    simp only [RecordedExchange.toJson, RecordedExchange.rounded, asMillis_fromMillis_asMillis]
    rfl
  rw [jsonlLine, jsonlLine, same]

variable (serde) in
/-- Appends that are not disturbed write the lines one after the other. -/
theorem exec_appends {f : JsonlFile z} (quiet : f.call = none) (steady : f.writer.flight ≠ .failing)
    (empty : f.writer.buf = []) (appends : List (RecordedExchange × Nat)) :
    let after := Execution.exec (step serde) f (appends.flatMap fun a => undisturbed serde a.1 a.2)
    after.writer.device = f.writer.device ++ (appends.map Prod.fst).flatMap (jsonlLine serde) ∧ after.call = none ∧
      after.log = f.log ++ appends.map fun a => (a.1, none) := by
  induction appends generalizing f with
  | nil => simp [quiet]
  | cons a rest ih =>
    obtain ⟨w', ran, device, empty', idle⟩ := exec_undisturbed serde quiet steady a.1 a.2
    have steady' : w'.flight ≠ .failing := by
      rw [idle]
      exact BufWriter.Flight.noConfusion
    obtain ⟨files, done, logs⟩ := ih (f := ⟨w', none, f.log ++ [(a.1, none)]⟩) rfl steady' empty'
    rw [List.flatMap_cons, Execution.exec_append, ran]
    refine ⟨?_, done, ?_⟩
    · rw [files, device, empty]
      simp
    · rw [logs]
      simp

end RoundTrip

/-- Exchanges appended to a new file come back in order with their durations in
whole milliseconds, and to append what came back writes the same bytes. -/
theorem append_load_append {serde : Serde} (law : serde.Lawful) (z : BufWriter.Sizes)
    (appends : List (RecordedExchange × Nat)) :
    let exchanges := appends.map Prod.fst
    let f := Execution.exec (step serde) (opened [] : JsonlFile z) (appends.flatMap fun a => undisturbed serde a.1 a.2)
    f.call = none ∧ f.log = exchanges.map (fun e => (e, none)) ∧
      ∃ loaded, f.load serde = .ok loaded ∧
        loaded = exchanges.map (fun e => { e with duration := min (e.duration / 1000000) (UInt64.size - 1) * 1000000 }) ∧
        loaded.map (jsonlLine serde) = exchanges.map (jsonlLine serde) ∧
        ∀ again : List (RecordedExchange × Nat), again.map Prod.fst = loaded →
          (Execution.exec (step serde) (opened [] : JsonlFile z)
            (again.flatMap fun a => undisturbed serde a.1 a.2)).writer.device = f.writer.device := by
  intro exchanges f
  have steady : (opened [] : JsonlFile z).writer.flight ≠ .failing := BufWriter.Flight.noConfusion
  obtain ⟨device, done, log⟩ := exec_appends serde (f := (opened [] : JsonlFile z)) rfl steady rfl appends
  have lines : (exchanges.map RecordedExchange.rounded).map (jsonlLine serde) = exchanges.map (jsonlLine serde) := by
    rw [List.map_map]
    exact List.map_congr_left fun e _ => jsonlLine_rounded e
  refine ⟨done, ?_, exchanges.map RecordedExchange.rounded, ?_, rfl, lines, ?_⟩
  · rw [show f.log = _ from log, List.map_map]
    rfl
  · exact load_of_lines law device
  · intro again same
    obtain ⟨device', _⟩ := exec_appends serde (f := (opened [] : JsonlFile z)) rfl steady rfl again
    rw [device', same, show f.writer.device = _ from device]
    rw [List.flatMap_def, List.flatMap_def, lines]

/-- A duration of one and a half milliseconds comes back as one. -/
theorem append_load_append_sample :
    ∃ loaded, (Execution.exec (step referenceSerde) (opened [] : JsonlFile standard)
      (undisturbed referenceSerde (sampleExchange "line\nfeed") 0)).load referenceSerde = .ok loaded ∧
        loaded.map RecordedExchange.duration = [1000000] := by
  obtain ⟨_, _, loaded, isLoaded, rfl, _⟩ :=
    append_load_append referenceSerde_lawful standard [(sampleExchange "line\nfeed", 0)]
  rw [List.flatMap_singleton] at isLoaded
  exact ⟨_, isLoaded, rfl⟩

end JsonlFile

end PartlyProxy
