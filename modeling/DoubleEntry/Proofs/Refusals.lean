import DoubleEntry.Proofs.LineLog

/-! # Lines that a sink refused in part

A sink may refuse an envelope behind its text, at the newline or at the flush, and what was written before
stays. A refused newline leaves a text to which the next one is put, and a refused flush leaves a complete
line whose number is used again. `lines_sound_iff` says of any sink when the lines are sound nevertheless: no
line may be completed once either was refused.
-/

namespace DoubleEntry

open Wire

/-- The complete lines of a sink, without their newlines. -/
def Sink.lines (sink : Sink) : List String :=
  (sink.written.toList.splitOn '\n').dropLast.map String.ofList

/-- The numbers of the lines that are envelopes. -/
def Sink.numbers (sink : Sink) : List Nat :=
  sink.lines.filterMap fun line => (read? line : Option (Envelope Float)).map (·.sequence)

namespace LineLog

/-- The stages at which records are refused that are written one after another. -/
def halts : List (Ident × Record Float) → LineLog → List (Option Stage)
  | [], _ => []
  | (event, record) :: rest, log => log.halt? :: halts rest (log.write event record).2

/-- The write ends a line. -/
def Completes (halt : Option Stage) : Prop := halt = some .flush ∨ halt = none

instance : DecidablePred Completes := fun halt =>
  inferInstanceAs (Decidable (halt = some .flush ∨ halt = none))

/-- No line is completed once a record was refused at a stage. -/
def AbandonedAfter (stage : Stage) (halts : List (Option Stage)) : Prop :=
  halts.Pairwise fun earlier later => earlier = some stage → ¬ Completes later

theorem abandonedAfter_append_singleton {stage : Stage} {halts : List (Option Stage)} {halt : Option Stage} :
    AbandonedAfter stage (halts ++ [halt]) ↔
      AbandonedAfter stage halts ∧ (Completes halt → some stage ∉ halts) := by
  rw [AbandonedAfter, List.pairwise_append]
  constructor
  · rintro ⟨before, -, across⟩
    exact ⟨before, fun completes inside => across _ inside _ (List.mem_singleton_self halt) rfl completes⟩
  · rintro ⟨before, apart⟩
    refine ⟨before, List.pairwise_singleton _ _, fun earlier inside later isLater same completes => ?_⟩
    obtain rfl := List.mem_singleton.mp isLater
    exact apart completes (same ▸ inside)

theorem abandonedAfter_append_completes {stage : Stage} {halts : List (Option Stage)} {halt : Option Stage}
    (completes : Completes halt) :
    AbandonedAfter stage (halts ++ [halt]) ↔ AbandonedAfter stage halts ∧ some stage ∉ halts := by
  rw [abandonedAfter_append_singleton]
  exact and_congr_right fun _ => ⟨fun clear => clear completes, fun clear _ => clear⟩

/-- What a sink holds: the envelopes on each complete line, and those behind the last newline. -/
structure Page where
  lines : List (List (Envelope Float)) := []
  tail : List (Envelope Float) := []

namespace Page

def run (envelopes : List (Envelope Float)) : String := String.join (envelopes.map text)

def text (page : Page) : String :=
  String.join (page.lines.map fun line => run line ++ "\n") ++ run page.tail

/-- All envelopes of a page in order. -/
def envelopes (page : Page) : List (Envelope Float) := page.lines.flatten ++ page.tail

/-- Puts an envelope to a page, up to the stage at which the write halts. -/
def add (page : Page) (envelope : Envelope Float) : Option Stage → Page
  | some .record => page
  | some .newline => { page with tail := page.tail ++ [envelope] }
  | some .flush | none => { lines := page.lines ++ [page.tail ++ [envelope]] }

theorem text_add (page : Page) (envelope : Envelope Float) (halt : Option Stage) :
    (page.add envelope halt).text = page.text ++ residue (Wire.text envelope) halt := by
  rcases halt with _ | _ | _ | _ <;>
    simp [add, text, residue, run, String.append_assoc, String.join_append]

theorem envelopes_add {page : Page} {envelope : Envelope Float} {halt : Option Stage}
    (taken : halt ≠ some .record) : (page.add envelope halt).envelopes = page.envelopes ++ [envelope] := by
  rcases halt with _ | _ | _ | _
  · simp [add, envelopes]
  · contradiction
  · simp [add, envelopes]
  · simp [add, envelopes]

theorem add_completes {page : Page} {envelope : Envelope Float} {halt : Option Stage}
    (completes : Completes halt) :
    page.add envelope halt = { lines := page.lines ++ [page.tail ++ [envelope]] } := by
  rcases completes with rfl | rfl <;> rfl

/-- The number of a line with one envelope on it. -/
def number? : List (Envelope Float) → Option Nat
  | [envelope] => some envelope.sequence
  | _ => none

/-- A line is read if there is one envelope on it. -/
theorem read?_run {line : List (Envelope Float)} (nonempty : line ≠ [])
    (reads : ∀ envelope ∈ line, ReadsAs envelope envelope.shown) :
    (read? (run line) : Option (Envelope Float)).map (·.sequence) = number? line := by
  rcases line with _ | ⟨first, _ | ⟨second, more⟩⟩
  · contradiction
  · have single : run [first] = Wire.text first := by simp [run]
    rw [single, (reads first List.mem_cons_self).read?_text]
    rfl
  · have shape : run (first :: second :: more) = Wire.text first ++ (Wire.text second ++ run more) := by
      simp [run]
    rw [shape, read?_append (reads first (by simp)).definite (reads second (by simp)).definite,
      Option.map_none]
    rfl

theorem isSome_number? {line : List (Envelope Float)} : (number? line).isSome ↔ line.length = 1 := by
  rcases line with _ | ⟨first, _ | ⟨second, more⟩⟩ <;> simp [number?]

/-- Lines that are no envelopes have no numbers. -/
theorem numbers_sublist (lines : List (List (Envelope Float))) :
    (lines.filterMap number?).Sublist (lines.flatten.map (·.sequence)) := by
  induction lines with
  | nil => exact .slnil
  | cons line lines ih =>
    rw [List.flatten_cons, List.map_append]
    rcases line with _ | ⟨first, _ | ⟨second, more⟩⟩
    · rw [List.filterMap_cons_none rfl]
      exact ih
    · rw [List.filterMap_cons_some (f := number?) (b := first.sequence) rfl]
      exact ih.cons_cons first.sequence
    · rw [List.filterMap_cons_none rfl]
      exact ih.trans (List.sublist_append_right _ _)

theorem numbers_eq {lines : List (List (Envelope Float))} (whole : ∀ line ∈ lines, line.length = 1) :
    lines.filterMap number? = lines.flatten.map (·.sequence) := by
  induction lines with
  | nil => rfl
  | cons line lines ih =>
    obtain ⟨envelope, rfl⟩ := List.length_eq_one_iff.mp (whole line List.mem_cons_self)
    simpa [number?] using ih fun line later => whole line (List.mem_cons_of_mem _ later)

theorem newline_not_mem_run {line : List (Envelope Float)}
    (reads : ∀ envelope ∈ line, ReadsAs envelope envelope.shown) : '\n' ∉ (run line).toList := by
  intro inside
  simp only [run, String.toList_join, List.mem_flatMap, List.mem_map] at inside
  obtain ⟨_, ⟨envelope, isEnvelope, rfl⟩, inside⟩ := inside
  exact (reads envelope isEnvelope).newline_not_mem inside

theorem intercalate_append_singleton {γ : Type} (mark : γ) (parts : List (List γ)) (last : List γ) :
    [mark].intercalate (parts ++ [last]) = parts.flatMap (· ++ [mark]) ++ last := by
  induction parts with
  | nil => simp
  | cons part parts ih =>
    obtain ⟨next, others, shape⟩ := List.exists_cons_of_ne_nil (List.append_ne_nil_of_right_ne_nil parts
      (List.cons_ne_nil last []))
    rw [List.cons_append, shape, List.intercalate_cons_cons, ← shape, ih]
    simp

/-- The complete lines of a sink are those of its page. -/
theorem lines_eq {page : Page} {sink : Sink} (written : sink.written = page.text)
    (reads : ∀ envelope ∈ page.envelopes, ReadsAs envelope envelope.shown) :
    sink.lines = page.lines.map run := by
  have unbroken : ∀ part ∈ page.lines.map (fun line => (run line).toList) ++ [(run page.tail).toList],
      '\n' ∉ part := by
    intro part inside
    rcases List.mem_append.mp inside with inside | inside
    · obtain ⟨line, isLine, rfl⟩ := List.mem_map.mp inside
      exact newline_not_mem_run fun envelope onLine => reads envelope
        (List.mem_append_left _ (List.mem_flatten.mpr ⟨line, isLine, onLine⟩))
    · rw [List.mem_singleton.mp inside]
      exact newline_not_mem_run fun envelope inTail => reads envelope (List.mem_append_right _ inTail)
  have joined : sink.written.toList =
      ['\n'].intercalate (page.lines.map (fun line => (run line).toList) ++ [(run page.tail).toList]) := by
    rw [intercalate_append_singleton, written, text, String.toList_append, String.toList_join]
    simp [List.flatMap_map]
  rw [Sink.lines, joined, List.splitOn_intercalate _ unbroken (by simp), List.dropLast_concat, List.map_map]
  exact List.map_congr_left fun line _ => String.ofList_toList

end Page

/-- What holds after writes that halted at the given stages. The last two say where numbers repeat: only
after a refused flush is the number of the next record on a complete line already. -/
structure Kept (halts : List (Option Stage)) (log : LineLog) (page : Page) : Prop where
  isOpen : log.isOpen = true
  numbered : log.lastSequence ≤ halts.length
  written : log.sink.written = page.text
  reads : ∀ envelope ∈ page.envelopes, ReadsAs envelope envelope.shown
  nonempty : ∀ line ∈ page.lines, line ≠ []
  below : ∀ envelope ∈ page.envelopes, envelope.sequence ≤ log.lastSequence + 1
  ascending : page.envelopes.Pairwise fun earlier later => earlier.sequence ≤ later.sequence
  whole : AbandonedAfter .newline halts ↔ ∀ line ∈ page.lines, line.length = 1
  torn : AbandonedAfter .newline halts → (some .newline ∈ halts ↔ page.tail ≠ [])
  fresh : AbandonedAfter .newline halts → (AbandonedAfter .flush halts ↔
    page.lines.flatten.Pairwise fun earlier later => earlier.sequence < later.sequence)
  again : AbandonedAfter .flush halts → (some .flush ∈ halts ↔
    ∃ envelope ∈ page.lines.flatten, envelope.sequence = log.lastSequence + 1)

theorem kept_opened (failure : Stage → Nat → Option String) : Kept [] (opened failure) {} where
  isOpen := rfl
  numbered := Nat.le_refl 0
  written := by simp [opened, Journal.openLog, Page.text, Page.run]
  reads := by simp [Page.envelopes]
  nonempty := by simp
  below := by simp [Page.envelopes]
  ascending := by simp [Page.envelopes]
  whole := by simp [AbandonedAfter]
  torn := by simp
  fresh := by simp [AbandonedAfter]
  again := by simp

variable {done : List (Option Stage)} {log after : LineLog} {page : Page} {envelope : Envelope Float}
  {result : Except JournalFault Unit}

/-- A record that is refused at once leaves everything as it was. -/
theorem Kept.add_none (kept : Kept done log page) (writes : Writes log (text envelope) result after)
    (halt : log.halt? = some .record) : Kept (done ++ [log.halt?]) after page := by
  have number : after.lastSequence = log.lastSequence := by simp [writes.number, halt]
  have apart (stage : Stage) : AbandonedAfter stage (done ++ [log.halt?]) ↔ AbandonedAfter stage done := by
    simp [abandonedAfter_append_singleton, halt, Completes]
  have written : after.sink.written = log.sink.written := by simp [writes.written, halt, residue]
  exact {
    isOpen := writes.isOpen
    numbered := by simpa [number] using Nat.le_succ_of_le kept.numbered
    written := written.trans kept.written
    reads := kept.reads
    nonempty := kept.nonempty
    below := by rw [number]; exact kept.below
    ascending := kept.ascending
    whole := (apart _).trans kept.whole
    torn := fun abandoned => by simpa [halt] using kept.torn ((apart _).mp abandoned)
    fresh := fun abandoned => (apart _).trans (kept.fresh ((apart _).mp abandoned))
    again := fun abandoned => by simpa [halt, number] using kept.again ((apart _).mp abandoned) }

/-- What does not depend on whether a line is completed. -/
theorem Kept.add_taken (kept : Kept done log page) (writes : Writes log (text envelope) result after)
    (reads : ReadsAs envelope envelope.shown) (numbered : envelope.sequence = log.lastSequence + 1)
    (taken : log.halt? ≠ some .record) :
    (page.add envelope log.halt?).envelopes.Pairwise (fun earlier later => earlier.sequence ≤ later.sequence) ∧
      ∀ e ∈ (page.add envelope log.halt?).envelopes,
        ReadsAs e e.shown ∧ e.sequence ≤ log.lastSequence + 1 := by
  rw [Page.envelopes_add taken, List.pairwise_append]
  refine ⟨⟨kept.ascending, List.pairwise_singleton _ _, fun earlier inside later isLater => ?_⟩,
    fun e inside => ?_⟩
  · rw [List.mem_singleton.mp isLater, numbered]
    exact kept.below earlier inside
  · rcases List.mem_append.mp inside with inside | inside
    · exact ⟨kept.reads e inside, kept.below e inside⟩
    · obtain rfl := List.mem_singleton.mp inside
      exact ⟨reads, numbered.le⟩

/-- A refused newline leaves a text behind the complete lines. -/
theorem Kept.add_tail (kept : Kept done log page) (writes : Writes log (text envelope) result after)
    (reads : ReadsAs envelope envelope.shown) (numbered : envelope.sequence = log.lastSequence + 1)
    (halt : log.halt? = some .newline) : Kept (done ++ [log.halt?]) after (page.add envelope log.halt?) := by
  have number : after.lastSequence = log.lastSequence := by simp [writes.number, halt]
  have apart (stage : Stage) : AbandonedAfter stage (done ++ [log.halt?]) ↔ AbandonedAfter stage done := by
    simp [abandonedAfter_append_singleton, halt, Completes]
  obtain ⟨ascending, each⟩ := kept.add_taken writes reads numbered (by simp [halt])
  have lines : (page.add envelope log.halt?).lines = page.lines := by rw [halt]; rfl
  have tail : (page.add envelope log.halt?).tail = page.tail ++ [envelope] := by rw [halt]; rfl
  exact {
    isOpen := writes.isOpen
    numbered := by simpa [number] using Nat.le_succ_of_le kept.numbered
    written := by rw [writes.written, kept.written, Page.text_add]
    reads := fun e inside => (each e inside).1
    nonempty := by rw [lines]; exact kept.nonempty
    below := by rw [number]; exact fun e inside => (each e inside).2
    ascending
    whole := by rw [lines]; exact (apart _).trans kept.whole
    torn := fun _ => by
      rw [tail]
      simp [halt]
    fresh := by rw [lines]; exact fun abandoned => (apart _).trans (kept.fresh ((apart _).mp abandoned))
    again := by
      rw [lines, number]
      exact fun abandoned => by simpa [halt] using kept.again ((apart _).mp abandoned) }

theorem Kept.below_lines (kept : Kept done log page) :
    ∀ e ∈ page.lines.flatten, e.sequence ≤ log.lastSequence + 1 := fun e inside =>
  kept.below e (List.mem_append_left _ inside)

/-- While no newline was refused nothing stands behind the complete lines, and the number of the next one is
new exactly if no flush was refused. -/
theorem Kept.rises_iff (kept : Kept done log page) (numbered : envelope.sequence = log.lastSequence + 1)
    (whole : AbandonedAfter .newline done) (clear : some .newline ∉ done) :
    (AbandonedAfter .flush done ∧ some .flush ∉ done) ↔
      (page.lines ++ [page.tail ++ [envelope]]).flatten.Pairwise
        fun earlier later => earlier.sequence < later.sequence := by
  have noTail : page.tail = [] := by
    by_contra inTail
    exact clear ((kept.torn whole).mpr inTail)
  rw [noTail, List.flatten_append, List.flatten_singleton, List.nil_append, List.pairwise_append,
    ← kept.fresh whole]
  refine and_congr_right fun before => ?_
  rw [kept.again before]
  constructor
  · intro unused
    refine ⟨List.pairwise_singleton _ _, fun e inside last isLast => ?_⟩
    rw [List.mem_singleton.mp isLast, numbered]
    exact lt_of_le_of_ne (kept.below_lines e inside) fun same => unused ⟨e, inside, same⟩
  · rintro ⟨-, across⟩ ⟨e, inside, same⟩
    exact absurd (same.trans numbered.symm) (across e inside _ (List.mem_singleton_self envelope)).ne

/-- A refused flush leaves the number of the next record on the line, and one that is not refused does not. -/
theorem Writes.again_iff (writes : Writes log (text envelope) result after)
    (numbered : envelope.sequence = log.lastSequence + 1) (completes : Completes log.halt?)
    (clear : some .flush ∉ done)
    (below : ∀ e ∈ (page.lines ++ [page.tail ++ [envelope]]).flatten, e.sequence ≤ log.lastSequence + 1) :
    some .flush ∈ done ++ [log.halt?] ↔
      ∃ e ∈ (page.lines ++ [page.tail ++ [envelope]]).flatten, e.sequence = after.lastSequence + 1 := by
  rcases completes with halt | halt
  · have same : after.lastSequence = log.lastSequence := by simp [writes.number, halt]
    rw [same]
    exact ⟨fun _ => ⟨envelope, by simp, numbered⟩, fun _ => by simp [halt]⟩
  · have next : after.lastSequence = log.lastSequence + 1 := by simp [writes.number, halt]
    rw [next]
    refine ⟨fun inside => absurd inside (by simp [halt, clear]), ?_⟩
    rintro ⟨e, inside, same⟩
    have most := below e inside
    omega

/-- A line is sound if nothing stood behind the complete ones. -/
theorem Kept.add_line (kept : Kept done log page) (writes : Writes log (text envelope) result after)
    (reads : ReadsAs envelope envelope.shown) (numbered : envelope.sequence = log.lastSequence + 1)
    (completes : Completes log.halt?) : Kept (done ++ [log.halt?]) after (page.add envelope log.halt?) := by
  have number : log.lastSequence ≤ after.lastSequence ∧ after.lastSequence ≤ log.lastSequence + 1 := by
    rw [writes.number]
    split <;> omega
  have taken : log.halt? ≠ some .record := by rcases completes with halt | halt <;> simp [halt]
  obtain ⟨ascending, each⟩ := kept.add_taken writes reads numbered taken
  have written : after.sink.written = (page.add envelope log.halt?).text := by
    rw [writes.written, kept.written, Page.text_add]
  rw [Page.add_completes completes] at ascending each written ⊢
  exact {
    isOpen := writes.isOpen
    numbered := by
      rw [List.length_append, List.length_singleton]
      exact number.2.trans (Nat.succ_le_succ kept.numbered)
    written
    reads := fun e inside => (each e inside).1
    nonempty := by
      intro line inside
      rcases List.mem_append.mp inside with inside | inside
      · exact kept.nonempty line inside
      · simp [List.mem_singleton.mp inside]
    below := fun e inside => (each e inside).2.trans (by omega)
    ascending
    whole := by
      rw [abandonedAfter_append_completes completes, List.forall_mem_append, ← kept.whole]
      refine and_congr_right fun abandoned => ?_
      rw [kept.torn abandoned]
      simp
    torn := fun abandoned => by
      have clear := ((abandonedAfter_append_completes completes).mp abandoned).2
      rcases completes with halt | halt <;> simp [halt, clear]
    fresh := fun abandoned => by
      obtain ⟨whole, clear⟩ := (abandonedAfter_append_completes completes).mp abandoned
      rw [abandonedAfter_append_completes completes]
      exact kept.rises_iff numbered whole clear
    again := fun abandoned => by
      have clear := ((abandonedAfter_append_completes completes).mp abandoned).2
      exact writes.again_iff numbered completes clear fun e inside =>
        (each e (List.mem_append_left _ inside)).2 }

theorem Kept.write {record : Record Float} (kept : Kept done log page) (fits : done.length + 1 < 2 ^ 64)
    (event : Ident) (readable : Readable record) :
    ∃ page, Kept (done ++ [log.halt?]) (log.write event record).2 page := by
  have writes := writes_write kept.isOpen event record
  have reads : ReadsAs (Envelope.wrap event (log.lastSequence + 1) record)
      (Envelope.wrap event (log.lastSequence + 1) record.shown) :=
    readsAs_wrap readable ((Nat.succ_le_succ kept.numbered).trans_lt fits) event
  rcases halt : log.halt? with _ | _ | _ | _ <;> rw [← halt]
  · exact ⟨_, kept.add_line writes reads rfl (.inr halt)⟩
  · exact ⟨_, kept.add_none writes halt⟩
  · exact ⟨_, kept.add_tail writes reads rfl halt⟩
  · exact ⟨_, kept.add_line writes reads rfl (.inl halt)⟩

theorem Kept.writeAll {entries : List (Ident × Record Float)} (kept : Kept done log page)
    (fits : done.length + entries.length < 2 ^ 64) (readable : ∀ entry ∈ entries, Readable entry.2) :
    ∃ page, Kept (done ++ halts entries log) (writeAll entries log).2 page := by
  induction entries generalizing done log page with
  | nil => exact ⟨page, by rwa [halts, List.append_nil]⟩
  | cons entry rest ih =>
    obtain ⟨event, record⟩ := entry
    rw [List.length_cons] at fits
    obtain ⟨page, kept⟩ := kept.write (by omega) event (readable _ List.mem_cons_self)
    obtain ⟨page, kept⟩ := ih kept (by rw [List.length_append, List.length_singleton]; omega)
      fun entry later => readable entry (List.mem_cons_of_mem _ later)
    exact ⟨page, by rwa [List.append_assoc] at kept⟩

section Sound

variable {failure : Stage → Nat → Option String} {entries : List (Ident × Record Float)}

/-- The sink holds a page, and what its lines are read as is told by the page. -/
theorem exists_page (fits : entries.length < 2 ^ 64) (readable : ∀ entry ∈ entries, Readable entry.2) :
    ∃ page, Kept (halts entries (opened failure)) (writeAll entries (opened failure)).2 page ∧
      (writeAll entries (opened failure)).2.sink.lines = page.lines.map Page.run ∧
      ∀ line ∈ page.lines,
        (read? (Page.run line) : Option (Envelope Float)).map (·.sequence) = Page.number? line := by
  obtain ⟨page, kept⟩ := (kept_opened failure).writeAll (by simpa using fits) readable
  rw [List.nil_append] at kept
  refine ⟨page, kept, Page.lines_eq kept.written kept.reads, fun line isLine => ?_⟩
  exact Page.read?_run (kept.nonempty line isLine) fun envelope onLine =>
    kept.reads envelope (List.mem_append_left _ (List.mem_flatten.mpr ⟨line, isLine, onLine⟩))

theorem lines_isSome_iff (fits : entries.length < 2 ^ 64) (readable : ∀ entry ∈ entries, Readable entry.2) :
    (∀ line ∈ (writeAll entries (opened failure)).2.sink.lines,
      (read? line : Option (Envelope Float)).isSome) ↔
        AbandonedAfter .newline (halts entries (opened failure)) := by
  obtain ⟨page, kept, lines, read⟩ := exists_page fits readable
  rw [lines, kept.whole, List.forall_mem_map]
  refine forall₂_congr fun line isLine => ?_
  rw [← Page.isSome_number?, ← read line isLine, Option.isSome_map]

theorem exists_page_numbers (fits : entries.length < 2 ^ 64)
    (readable : ∀ entry ∈ entries, Readable entry.2) :
    ∃ page, Kept (halts entries (opened failure)) (writeAll entries (opened failure)).2 page ∧
      (writeAll entries (opened failure)).2.sink.numbers = page.lines.filterMap Page.number? := by
  obtain ⟨page, kept, lines, read⟩ := exists_page fits readable
  refine ⟨page, kept, ?_⟩
  rw [Sink.numbers, lines, List.filterMap_map]
  exact List.filterMap_congr read

theorem numbers_ascend (fits : entries.length < 2 ^ 64) (readable : ∀ entry ∈ entries, Readable entry.2) :
    (writeAll entries (opened failure)).2.sink.numbers.Pairwise (· ≤ ·) := by
  obtain ⟨page, kept, numbers⟩ := exists_page_numbers fits readable
  rw [numbers]
  exact (List.pairwise_map.mpr (List.pairwise_append.mp kept.ascending).1).sublist
    (Page.numbers_sublist page.lines)

theorem numbers_lt_iff (fits : entries.length < 2 ^ 64) (readable : ∀ entry ∈ entries, Readable entry.2)
    (abandoned : AbandonedAfter .newline (halts entries (opened failure))) :
    (writeAll entries (opened failure)).2.sink.numbers.Pairwise (· < ·) ↔
      AbandonedAfter .flush (halts entries (opened failure)) := by
  obtain ⟨page, kept, numbers⟩ := exists_page_numbers fits readable
  rw [numbers, kept.fresh abandoned, Page.numbers_eq (kept.whole.mp abandoned), List.pairwise_map]

end Sound

/-- Whatever the sink refuses, the numbers of readable lines never fall. Every complete line is an envelope
exactly if no line was completed once a newline was refused, and then the numbers rise from line to line
exactly if none was completed once a flush was refused. -/
theorem lines_sound_iff (failure : Stage → Nat → Option String) (entries : List (Ident × Record Float))
    (fits : entries.length < 2 ^ 64) (readable : ∀ entry ∈ entries, Readable entry.2) :
    let sink := (writeAll entries (opened failure)).2.sink
    let halts := halts entries (opened failure)
    sink.numbers.Pairwise (· ≤ ·) ∧
      ((∀ line ∈ sink.lines, (read? line : Option (Envelope Float)).isSome) ↔
        AbandonedAfter .newline halts) ∧
      (AbandonedAfter .newline halts →
        (sink.numbers.Pairwise (· < ·) ↔ AbandonedAfter .flush halts)) :=
  ⟨numbers_ascend fits readable, lines_isSome_iff fits readable, numbers_lt_iff fits readable⟩

instance (stage : Stage) : DecidablePred (AbandonedAfter stage) := fun halts =>
  inferInstanceAs (Decidable (halts.Pairwise _))

/-- Refuses the first call of a stage. -/
def refusing (stage : Stage) : Stage → Nat → Option String := fun called count =>
  if called = stage ∧ count = 0 then some "refused" else none

/-- A record that is refused before anything of it is written does no harm. -/
theorem lines_sound_iff_sample :
    let sink := (writeAll sampleEntries (opened (refusing .record))).2.sink
    (∀ line ∈ sink.lines, (read? line : Option (Envelope Float)).isSome) ∧
      sink.numbers.Pairwise (· < ·) := by
  obtain ⟨-, whole, rising⟩ :=
    lines_sound_iff (refusing .record) sampleEntries (by decide) readable_sampleEntries
  have noNewline : AbandonedAfter .newline (halts sampleEntries (opened (refusing .record))) := by
    decide +kernel
  have noFlush : AbandonedAfter .flush (halts sampleEntries (opened (refusing .record))) := by
    decide +kernel
  exact ⟨whole.mpr noNewline, (rising noNewline).mpr noFlush⟩

/-- A newline that is refused once leaves a line that is no envelope, and a flush that is refused once
leaves two lines with one number. -/
theorem lines_unsound :
    (∀ entry ∈ sampleEntries, Readable entry.2) ∧
      (¬ ∀ line ∈ (writeAll sampleEntries (opened (refusing .newline))).2.sink.lines,
        (read? line : Option (Envelope Float)).isSome) ∧
      ¬ (writeAll sampleEntries (opened (refusing .flush))).2.sink.numbers.Pairwise (· < ·) := by
  refine ⟨readable_sampleEntries, ?_, ?_⟩
  · rw [lines_isSome_iff (by decide) readable_sampleEntries]
    decide +kernel
  · rw [numbers_lt_iff (by decide) readable_sampleEntries (by decide +kernel)]
    decide +kernel

end LineLog

end DoubleEntry
