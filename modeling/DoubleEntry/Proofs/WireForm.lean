import DoubleEntry.Proofs.JsonText
import DoubleEntry.Proofs.Spellings
import DoubleEntry.Wire.Record
import Mathlib

/-! # The wire form reads back

A value is faithful if its JSON is definite and is read as the value. Texts, identifiers and names of cases
are faithful whatever they are. Not every float is, nor every instant: `ReadsAs` says which value the JSON of
a value is read as. A split is read with its numbers as they are read (`readsAs_split`), an instant as what a
clock shows at it, and so a record and an envelope whose numbers are faithful with their dates as a clock
shows them (`readsAs_envelope`). What is read as a value is read so from its text (`ReadsAs.read?_text`),
which stands in one line (`ReadsAs.newline_not_mem`).
-/

namespace DoubleEntry

namespace Json

variable {members : List (String × Json)}

theorem definite_record (each : ∀ entry ∈ members, Definite entry.2) : Definite (record members) := by
  refine .object _ (fun entry inside => ?_) fun entry inside => ?_
  · obtain ⟨member, -, rfl⟩ := List.mem_map.mp inside
    rfl
  · obtain ⟨member, isMember, rfl⟩ := List.mem_map.mp inside
    exact each member isMember

/-- A member is found by its name if no other has it. -/
theorem member?_record (distinct : (members.map (·.1)).Nodup) {member : String × Json}
    (isMember : member ∈ members) :
    member? (members.map fun (name, value) => (some name, value)) member.1 = some (some member.2) := by
  have only : (members.map fun (name, value) => (some name, value)).filter
      (fun entry => entry.1 == some member.1) = [(some member.1, member.2)] := by
    induction members with
    | nil => cases isMember
    | cons first others ih =>
      obtain ⟨name, value⟩ := first
      rw [List.map_cons, List.nodup_cons] at distinct
      rcases List.mem_cons.mp isMember with rfl | isMember
      · have absent : (others.map fun (name, value) => (some name, value)).filter
            (fun entry => entry.1 == some name) = [] := by
          rw [List.filter_eq_nil_iff]
          intro entry inside same
          obtain ⟨other, isOther, rfl⟩ := List.mem_map.mp inside
          have named : other.1 = name := by simpa using same
          exact distinct.1 (List.mem_map.mpr ⟨other, isOther, named⟩)
        simp [absent]
      · have different : name ≠ member.1 := by
          intro same
          exact distinct.1 (List.mem_map.mpr ⟨member, isMember, same.symm⟩)
        simpa [different] using ih distinct.2 isMember
  rw [member?, only]

theorem mapM_eq_some {β γ δ : Type} {key : β → γ} {f : γ → Option δ} {g : β → δ} {xs : List β}
    (each : ∀ x ∈ xs, f (key x) = some (g x)) : (xs.map key).mapM f = some (xs.map g) := by
  induction xs with
  | nil => rfl
  | cons x xs ih =>
    simp [List.mapM_cons, each x List.mem_cons_self, ih fun y later => each y (List.mem_cons_of_mem x later)]

theorem fields?_record (distinct : (members.map (·.1)).Nodup) :
    (record members).fields? (members.map (·.1)) = some (members.map fun member => some member.2) := by
  have named : (members.map fun (name, value) => (some name, value)).all
      (fun entry => entry.1.isSome) = true := by simp
  rw [record, fields?, if_pos named]
  exact mapM_eq_some fun member isMember => member?_record distinct isMember

/-- The fields of a record, read by their names, are the values that were written. -/
theorem fields?_zip {names : List String} {values : List Json} (distinct : names.Nodup)
    (full : names.length = values.length) :
    (record (names.zip values)).fields? names = some (values.map some) := by
  have isNames : (names.zip values).map (·.1) = names := List.map_fst_zip full.le
  have isValues : (names.zip values).map (fun member => some member.2) = values.map some := calc
    _ = ((names.zip values).map Prod.snd).map some := (List.map_map).symm
    _ = values.map some := by rw [List.map_snd_zip full.ge]
  have fields := fields?_record (isNames.symm ▸ distinct : ((names.zip values).map (·.1)).Nodup)
  rwa [isNames, isValues] at fields

theorem nat?_ofNat {limit n : Nat} (fits : n ≤ limit) : nat? limit (ofNat n) = some n := by
  have value : Decimal.valueOf (Decimal.digitsOf n) = n := Decimal.valueOf_digitsOf n
  rw [ofNat, Decimal.Numeral.ofNat, nat?, value, if_pos fits]

end Json

namespace Record

variable {α : Type}

/-- The amounts and prices in a record. -/
def numbers (record : Record α) : List α :=
  record.snapshot.splits.flatMap fun split => [split.amount, split.price]

/-- The record with its dates as a clock shows them. -/
def shown (record : Record α) : Record α :=
  { record with
    snapshot := { record.snapshot with
      posted := record.snapshot.posted.shown
      entered := record.snapshot.entered.shown }
    writtenAt := record.writtenAt.shown }

/-- A clock can tell all dates of a record. -/
def IsOnClock (record : Record α) : Prop :=
  record.snapshot.posted.IsOnClock ∧ record.snapshot.entered.IsOnClock ∧ record.writtenAt.IsOnClock

instance (record : Record α) : Decidable record.IsOnClock := inferInstanceAs (Decidable (_ ∧ _))

theorem shown_eq_iff {record : Record α} : record.shown = record ↔ record.IsOnClock := by
  obtain ⟨kind, ⟨transaction, num, description, docref, posted, entered, splits⟩, writtenAt⟩ := record
  simp [shown, IsOnClock, Instant.shown_eq_iff, and_assoc]

end Record

/-- The envelope with the dates of its record as a clock shows them. -/
def Envelope.shown {α : Type} (envelope : Envelope α) : Envelope α :=
  { envelope with payload := envelope.payload.shown }

namespace Wire

open Json

/-- A value whose JSON says all of it. -/
structure Faithful {β : Type} [Wire β] (value : β) : Prop where
  definite : Definite (toJson value)
  reads : ofJson? (toJson value) = some value

/-- A value whose JSON is read as a value, which may be another one. -/
structure ReadsAs {β : Type} [Wire β] (value other : β) : Prop where
  definite : Definite (toJson value)
  reads : ofJson? (toJson value) = some other

section Values

variable {β : Type} [Wire β] {value other : β}

theorem ReadsAs.read?_text (readsAs : ReadsAs value other) : read? (text value) = some other := by
  rw [read?, text, readsAs.definite.read?_text, Option.bind_some, readsAs.reads]

theorem ReadsAs.newline_not_mem (readsAs : ReadsAs value other) : '\n' ∉ (text value).toList := by
  intro inside
  rw [text, Json.text, String.toList_ofList] at inside
  exact absurd (readsAs.definite.printable _ inside) (by decide)

theorem ReadsAs.required (readsAs : ReadsAs value other) : required? (some (toJson value)) = some other :=
  readsAs.reads

theorem Faithful.readsAs (faithful : Faithful value) : ReadsAs value value :=
  ⟨faithful.definite, faithful.reads⟩

theorem Faithful.required (faithful : Faithful value) : required? (some (toJson value)) = some value :=
  faithful.reads

theorem faithful_string (value : String) : Faithful value := ⟨.string value, rfl⟩

theorem faithful_ident (ident : Ident) : Faithful ident where
  definite := .string ident.text
  reads := by
    simp only [ofJson?, toJson, ofText, text?, Option.bind_some, Ident.text, String.toList_ofList,
      Ident.ofChars?_chars]

theorem faithful_entityId {kind : EntityKind} (id : EntityId kind) : Faithful id where
  definite := (faithful_ident id.ident).definite
  reads := by
    change (ofJson? (toJson id.ident) : Option Ident).map EntityId.mk = some id
    rw [(faithful_ident id.ident).reads]
    rfl

theorem readsAs_instant (instant : Instant) : ReadsAs instant instant.shown where
  definite := .string instant.text
  reads := by
    simp only [ofJson?, toJson, ofText, text?, Option.bind_some, Instant.ofText?, Instant.text,
      String.toList_ofList, Instant.ofChars?_chars]

theorem faithful_reconcile (state : Reconcile) : Faithful state where
  definite := .string state.name
  reads := by cases state <;> decide

theorem faithful_eventKind (kind : EventKind) : Faithful kind where
  definite := .string kind.name
  reads := by cases kind <;> decide

theorem readsAs_float {x y : Float} (reads : float? (ofFloat x) = some y) : ReadsAs x y where
  definite := by
    change Definite (ofFloat x)
    unfold ofFloat
    split
    · exact .number _ (Decimal.Layout.numeral_regular _ _)
    · exact .null
  reads

/-- A double is faithful if the reader gives the one that was written; it is finite then, for the others are
written as null. -/
theorem faithful_float {x : Float} (reads : float? (ofFloat x) = some x) : Faithful x where
  definite := (readsAs_float reads).definite
  reads

theorem ofJson?_option {json : Json} (present : json ≠ .null) :
    (ofJson? json : Option (Option β)) = (ofJson? json : Option β).map some := by
  cases json with
  | null => contradiction
  | _ => rfl

/-- An absent value is told from a present one, which is not written as null. -/
theorem faithful_option {present : Option β}
    (each : ∀ value ∈ present, Faithful value ∧ toJson value ≠ .null) : Faithful present := by
  cases present with
  | none => exact ⟨.null, rfl⟩
  | some value =>
    obtain ⟨faithful, notNull⟩ := each value rfl
    refine ⟨faithful.definite, ?_⟩
    change (ofJson? (toJson value) : Option (Option β)) = some (some value)
    rw [ofJson?_option notNull, faithful.reads, Option.map_some]

theorem Faithful.optional {present : Option β} (faithful : Faithful present) :
    optional? (some (toJson present)) = some present :=
  faithful.reads

theorem faithful_list {values : List β} (each : ∀ value ∈ values, Faithful value) : Faithful values where
  definite := .array _ fun json inside => by
    obtain ⟨value, isValue, rfl⟩ := List.mem_map.mp inside
    exact (each value isValue).definite
  reads := by
    change (values.map toJson).mapM ofJson? = some values
    rw [mapM_eq_some (g := id) fun value inside => (each value inside).reads, List.map_id]

end Values

/-! ## Records -/

variable {α : Type} [Wire α]

/-- A split is read with the amount and the price that its numbers are read as. -/
theorem readsAs_split {split : SplitSnapshot α} {amount price : α} (isAmount : ReadsAs split.amount amount)
    (isPrice : ReadsAs split.price price) : ReadsAs split { split with amount, price } := by
  have id := faithful_entityId split.split
  have account : Faithful split.account := faithful_option fun id _ => ⟨faithful_entityId id, nofun⟩
  have memo := faithful_string split.memo
  have action := faithful_string split.action
  have docref := faithful_string split.docref
  have reconcile := faithful_reconcile split.reconcile
  have fields : (toJson split).fields? splitFields = some ([toJson split.split, toJson split.account,
    toJson split.memo, toJson split.action, toJson split.docref, toJson split.reconcile,
    toJson split.amount, toJson split.price].map some) :=
    fields?_zip (by decide) rfl
  refine ⟨definite_record ?_, ?_⟩
  · simp [splitFields, id.definite, account.definite, memo.definite, action.definite, docref.definite,
      reconcile.definite, isAmount.definite, isPrice.definite]
  · refine Option.bind_eq_some_iff.mpr ⟨_, fields, ?_⟩
    refine Option.bind_eq_some_iff.mpr ⟨_, id.required, ?_⟩
    refine Option.bind_eq_some_iff.mpr ⟨_, account.optional, ?_⟩
    refine Option.bind_eq_some_iff.mpr ⟨_, memo.required, ?_⟩
    refine Option.bind_eq_some_iff.mpr ⟨_, action.required, ?_⟩
    refine Option.bind_eq_some_iff.mpr ⟨_, docref.required, ?_⟩
    refine Option.bind_eq_some_iff.mpr ⟨_, reconcile.required, ?_⟩
    refine Option.bind_eq_some_iff.mpr ⟨_, isAmount.required, ?_⟩
    refine Option.bind_eq_some_iff.mpr ⟨_, isPrice.required, ?_⟩
    rfl

theorem faithful_split {split : SplitSnapshot α} (amount : Faithful split.amount)
    (price : Faithful split.price) : Faithful split :=
  have readsAs := readsAs_split amount.readsAs price.readsAs
  ⟨readsAs.definite, readsAs.reads⟩

theorem readsAs_transaction {transaction : TransactionSnapshot α}
    (each : ∀ split ∈ transaction.splits, Faithful split) : ReadsAs transaction { transaction with
      posted := transaction.posted.shown
      entered := transaction.entered.shown } := by
  have id := faithful_entityId transaction.transaction
  have num := faithful_string transaction.num
  have description := faithful_string transaction.description
  have docref := faithful_string transaction.docref
  have posted := readsAs_instant transaction.posted
  have entered := readsAs_instant transaction.entered
  have splits := faithful_list each
  have fields : (toJson transaction).fields? transactionFields = some ([toJson transaction.transaction,
    toJson transaction.num, toJson transaction.description, toJson transaction.docref,
    toJson transaction.posted, toJson transaction.entered, toJson transaction.splits].map some) :=
    fields?_zip (by decide) rfl
  refine ⟨definite_record ?_, ?_⟩
  · simp [transactionFields, id.definite, num.definite, description.definite, docref.definite,
      posted.definite, entered.definite, splits.definite]
  · refine Option.bind_eq_some_iff.mpr ⟨_, fields, ?_⟩
    refine Option.bind_eq_some_iff.mpr ⟨_, id.required, ?_⟩
    refine Option.bind_eq_some_iff.mpr ⟨_, num.required, ?_⟩
    refine Option.bind_eq_some_iff.mpr ⟨_, description.required, ?_⟩
    refine Option.bind_eq_some_iff.mpr ⟨_, docref.required, ?_⟩
    refine Option.bind_eq_some_iff.mpr ⟨_, posted.required, ?_⟩
    refine Option.bind_eq_some_iff.mpr ⟨_, entered.required, ?_⟩
    refine Option.bind_eq_some_iff.mpr ⟨_, splits.required, ?_⟩
    rfl

theorem readsAs_record {record : Record α} (numbers : ∀ x ∈ record.numbers, Faithful x) :
    ReadsAs record record.shown := by
  have kind := faithful_eventKind record.kind
  have writtenAt := readsAs_instant record.writtenAt
  have snapshot : ReadsAs record.snapshot record.shown.snapshot :=
    readsAs_transaction fun split isSplit =>
      faithful_split (numbers _ (List.mem_flatMap.mpr ⟨split, isSplit, by simp⟩))
        (numbers _ (List.mem_flatMap.mpr ⟨split, isSplit, by simp⟩))
  have fields : (toJson record).fields? recordFields = some ([toJson record.kind,
    toJson record.snapshot, toJson record.writtenAt].map some) :=
    fields?_zip (by decide) rfl
  refine ⟨definite_record ?_, ?_⟩
  · simp [recordFields, kind.definite, snapshot.definite, writtenAt.definite]
  · refine Option.bind_eq_some_iff.mpr ⟨_, fields, ?_⟩
    refine Option.bind_eq_some_iff.mpr ⟨_, kind.required, ?_⟩
    refine Option.bind_eq_some_iff.mpr ⟨_, snapshot.required, ?_⟩
    refine Option.bind_eq_some_iff.mpr ⟨_, writtenAt.required, ?_⟩
    rfl

theorem word?_ofNat {width n : Nat} (fits : n < 2 ^ width) : word? width (some (.ofNat n)) = some n :=
  nat?_ofNat (Nat.le_sub_one_of_lt fits)

theorem readsAs_envelope {envelope : Envelope α} (version : envelope.version < 2 ^ 32)
    (sequence : envelope.sequence < 2 ^ 64) (numbers : ∀ x ∈ envelope.payload.numbers, Faithful x) :
    ReadsAs envelope envelope.shown := by
  have event := faithful_ident envelope.event
  have eventType := faithful_string envelope.eventType
  have payload := readsAs_record numbers
  have number (n : Nat) : Definite (.ofNat n) := .number _ (Decimal.Numeral.regular_ofNat n)
  have fields : (toJson envelope).fields? envelopeFields = some ([toJson envelope.event,
    toJson envelope.eventType, .ofNat envelope.version, .ofNat envelope.sequence,
    toJson envelope.payload].map some) :=
    fields?_zip (by decide) rfl
  refine ⟨definite_record ?_, ?_⟩
  · simp [envelopeFields, event.definite, eventType.definite, number, payload.definite]
  · refine Option.bind_eq_some_iff.mpr ⟨_, fields, ?_⟩
    refine Option.bind_eq_some_iff.mpr ⟨_, event.required, ?_⟩
    refine Option.bind_eq_some_iff.mpr ⟨_, eventType.required, ?_⟩
    refine Option.bind_eq_some_iff.mpr ⟨_, word?_ofNat version, ?_⟩
    refine Option.bind_eq_some_iff.mpr ⟨_, word?_ofNat sequence, ?_⟩
    refine Option.bind_eq_some_iff.mpr ⟨_, payload.required, ?_⟩
    rfl

/-- The texts of two envelopes on one line are the text of none. -/
theorem read?_append {first second : Envelope α} (one : Definite (toJson first))
    (other : Definite (toJson second)) (more : String) :
    (read? (text first ++ (text second ++ more)) : Option (Envelope α)) = none := by
  have shape : ∃ members, toJson first = .object members := ⟨_, rfl⟩
  obtain ⟨members, shape⟩ := shape
  rw [shape] at one
  have unread : Json.ofChars? ((Json.object members).chars ++
      ((toJson second).chars ++ more.toList)) = none := one.ofChars?_append other
  rw [read?, Json.read?, text, text, Json.text, Json.text, String.toList_append, String.toList_append,
    String.toList_ofList, String.toList_ofList, shape, unread, Option.bind_none]

end Wire

end DoubleEntry
