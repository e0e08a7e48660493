import DoubleEntry.Proofs.Chronicle

/-! # What a deed does to a transaction

Seen from one transaction, a deed does one of a few things (`Ledger.Turn`): it leaves it and the records of it
alone, brings it in, or opens it, closes it or removes it with a record of that. Only where the journal fails
may it be opened or closed without one, and then the deed is to open or to close it (`Deed.Slips`).
-/

namespace DoubleEntry

open DoubleEntry.Action Ledger

section Turns

variable {α J : Type} [Chronicle J α] {before after : Ledger α J} {id other : TransactionId}
  {slips weaker : Prop}

/-- What happens to one transaction and to the records of it. It may be opened or closed without a record
where that slips. -/
inductive Ledger.Turn (slips : Prop) (before after : Ledger α J) (id : TransactionId) : Prop
  | rests (status : after.isOpen? id = before.isOpen? id)
    (told : Chronicle.about after.journal id = Chronicle.about before.journal id)
  | born (unnumbered : before.minted ≤ id.ident.toNat) (status : after.isOpen? id = some false)
    (told : Chronicle.about after.journal id = Chronicle.about before.journal id)
  | begins (record : Record α) (isKind : record.kind = .began) (live : (before.isOpen? id).isSome)
    (status : after.isOpen? id = some true)
    (told : Chronicle.about after.journal id = Chronicle.about before.journal id ++ [record])
  | commits (record : Record α) (isKind : record.kind = .committed)
    (isSnapshot : after.snapshot id = .ok record.snapshot) (wasOpen : before.isOpen? id = some true)
    (status : after.isOpen? id = some false)
    (told : Chronicle.about after.journal id = Chronicle.about before.journal id ++ [record])
  | destroys (record : Record α) (isKind : record.kind = .destroyed)
    (wasOpen : before.isOpen? id = some true) (status : after.isOpen? id = none)
    (told : Chronicle.about after.journal id = Chronicle.about before.journal id ++ [record])
  | slips (slipped : slips) (isOpen : Bool) (live : (before.isOpen? id).isSome)
    (status : after.isOpen? id = some isOpen)
    (told : Chronicle.about after.journal id = Chronicle.about before.journal id)

theorem Ledger.Turn.imp (turn : before.Turn slips after id) (step : slips → weaker) :
    before.Turn weaker after id := by
  cases turn with
  | rests status told => exact .rests status told
  | born unnumbered status told => exact .born unnumbered status told
  | begins record isKind live status told => exact .begins record isKind live status told
  | commits record isKind isSnapshot wasOpen status told =>
    exact .commits record isKind isSnapshot wasOpen status told
  | destroys record isKind wasOpen status told => exact .destroys record isKind wasOpen status told
  | slips slipped isOpen live status told => exact .slips (step slipped) isOpen live status told

omit [Chronicle J α] in
theorem Ledger.subject_of_snapshot {record : Record α} (shows : after.snapshot id = .ok record.snapshot) :
    record.subject = id := by
  obtain ⟨transaction, -, shows⟩ := bind_eq_ok_iff.mp shows
  rw [Record.subject, ← Except.ok.inj shows]

theorem Chronicle.about_of_told {log next : J} (told : records next = records log) (id : TransactionId) :
    about next id = about log id := by
  rw [about, told, about]

theorem Chronicle.about_subject {log next : J} {record : Record α}
    (told : records next = records log ++ [record]) (subject : record.subject = id) :
    about next id = about log id ++ [record] := by
  simp [about, told, subject]

theorem Chronicle.about_other {log next : J} {record : Record α}
    (told : records next = records log ++ [record]) (subject : record.subject = id)
    (different : other ≠ id) : about next other = about log other := by
  simp [about, told, subject, different.symm]

theorem Ledger.Unrecorded.turn (quiet : before.Unrecorded after) (id : TransactionId) :
    before.Turn slips after id :=
  .rests (congrFun (isOpen?_eq_of_sameEdits quiet.edits) id) (by rw [quiet.journal])

/-- Other transactions have no part in what is done to one. -/
theorem Ledger.turn_of_update (slips : TransactionId → Prop) {status : Option Bool}
    (isStatus : after.isOpen? = Function.update before.isOpen? id status)
    (told : ∀ other ≠ id, Chronicle.about after.journal other = Chronicle.about before.journal other)
    (turn : after.isOpen? id = status → before.Turn (slips id) after id) (other : TransactionId) :
    before.Turn (slips other) after other := by
  by_cases same : other = id
  · subst same
    exact turn (by rw [isStatus, Function.update_self])
  · exact .rests (by rw [isStatus, Function.update_of_ne same]) (told other same)

/-- The call of a command that opens or closes a session ends with a failure of the journal. -/
def Ledger.SlipsAt {β : Type} (result : Except Fault β) (id other : TransactionId) : Prop :=
  id = other ∧ ∃ message, result = .error (.journal message)

variable {result : Except Fault Unit}

theorem Ledger.Begins.turn {defer : Bool} (begins : before.Begins id defer result after)
    (other : TransactionId) : before.Turn (SlipsAt result id other) after other := by
  cases begins with
  | absent _ => exact .rests rfl rfl
  | told opened record isKind isSnapshot told =>
    have subject := subject_of_snapshot isSnapshot
    have elsewhere : ∀ other ≠ id, _ := fun _ => Chronicle.about_other told subject
    refine turn_of_update (SlipsAt _ id) opened.status elsewhere (fun status => ?_) other
    exact .begins record isKind opened.live status (Chronicle.about_subject told subject)
  | untold opened fault fails told =>
    have about := Chronicle.about_of_told told
    refine turn_of_update (SlipsAt _ id) opened.status (fun other _ => about other) (fun status => ?_) other
    exact .slips ⟨rfl, _, rfl⟩ true opened.live status (about id)

theorem Ledger.Closes.turn (closes : before.Closes id result after) (other : TransactionId) :
    before.Turn (SlipsAt result id other) after other := by
  cases closes with
  | told closed record isKind isSnapshot told =>
    have subject := subject_of_snapshot isSnapshot
    have elsewhere : ∀ other ≠ id, _ := fun _ => Chronicle.about_other told subject
    refine turn_of_update (SlipsAt _ id) closed.status elsewhere (fun status => ?_) other
    exact .commits record isKind isSnapshot closed.wasOpen status (Chronicle.about_subject told subject)
  | untold closed fault fails told =>
    have about := Chronicle.about_of_told told
    refine turn_of_update (SlipsAt _ id) closed.status (fun other _ => about other) (fun status => ?_) other
    exact .slips ⟨rfl, _, rfl⟩ false (by rw [closed.wasOpen]; rfl) status (about id)

theorem Ledger.Commits.turn (commits : before.Commits id result after) (other : TransactionId) :
    before.Turn (SlipsAt result id other) after other := by
  cases commits with
  | refused _ _ _ => exact .rests rfl rfl
  | unbalanced _ _ _ status journal _ => exact .rests (congrFun status other) (by rw [journal])
  | balanced closes => exact closes.turn other

theorem Ledger.Discards.turn (discards : before.Discards id result after)
    (wasOpen : before.isOpen? id = some true) (other : TransactionId) : before.Turn slips after other := by
  cases discards with
  | untold _ status told _ => exact .rests (congrFun status other) (Chronicle.about_of_told told other)
  | told record isKind isSnapshot status told _ =>
    have subject := subject_of_snapshot isSnapshot
    have elsewhere : ∀ other ≠ id, _ := fun _ => Chronicle.about_other told subject
    refine turn_of_update (fun _ => slips) status elsewhere (fun status => ?_) other
    exact .destroys record isKind wasOpen status (Chronicle.about_subject told subject)

theorem Ledger.Begins.grows {defer : Bool} (begins : before.Begins id defer result after) :
    before.minted ≤ after.minted := by
  cases begins with
  | absent _ => exact le_rfl
  | told opened _ _ _ _ | untold opened _ _ _ => exact opened.grows

theorem Ledger.Commits.grows (commits : before.Commits id result after) :
    before.minted ≤ after.minted := by
  cases commits with
  | refused _ _ _ => exact le_rfl
  | unbalanced _ _ _ _ _ grows => exact grows
  | balanced closes => cases closes with | told closed _ _ _ _ | untold closed _ _ _ => exact closed.grows

theorem Ledger.Discards.grows (discards : before.Discards id result after) :
    before.minted ≤ after.minted := by
  cases discards with | told _ _ _ _ _ grows | untold _ _ _ grows => exact grows

/-- Only a journal that fails is blamed. -/
theorem Ledger.Begins.fails {defer : Bool} {message : String} (begins : before.Begins id defer result after)
    (failed : result = .error (.journal message)) : ∃ fault, Journal.Fails J fault := by
  cases begins with
  | absent _ | told _ _ _ _ _ => cases failed
  | untold _ fault fails _ => exact ⟨fault, fails⟩

theorem Ledger.Commits.fails {message : String} (commits : before.Commits id result after)
    (failed : result = .error (.journal message)) : ∃ fault, Journal.Fails J fault := by
  cases commits with
  | refused _ fault own | unbalanced _ fault own _ _ _ => exact absurd (Except.error.inj failed) (own _)
  | balanced closes =>
    cases closes with
    | told _ _ _ _ _ => cases failed
    | untold _ fault fails _ => exact ⟨fault, fails⟩

variable [Scalar α]

/-- A new transaction is closed, and is numbered as none before. -/
theorem Action.ends_createTransaction_turn : createTransaction.Ends before fun _ after =>
    before.minted ≤ after.minted ∧
      (after.minted ≤ 2 ^ 128 → ∀ other, before.Turn False after other) := by
  refine ⟨Nat.le_add_right before.minted 2, fun fresh other => ?_⟩
  change before.minted + 2 ≤ 2 ^ 128 at fresh
  let owner : TransactionId := ⟨Ident.ofNat (before.minted + 1)⟩
  let source : SplitId := ⟨Ident.ofNat before.minted⟩
  have status : (createTransaction before).ledger.isOpen? =
      Function.update before.isOpen? owner (some false) := by
    funext id
    change ((before.transactions.insert owner (.ofSource source)).get? id).map _ = _
    rw [Table.get?_insert, Function.update_apply]
    split <;> rfl
  refine turn_of_update (fun _ => False) status (fun _ _ => rfl) (fun closed => .born ?_ closed rfl) other
  rw [Links.toNat_ofNat (by omega)]
  exact Nat.le_succ _

theorem Action.ends_destroyTransaction_turn (id : TransactionId) : (destroyTransaction id).Ends before
    fun _ after => before.minted ≤ after.minted ∧ ∀ other, before.Turn False after other := by
  rw [destroyTransaction, ensureOpen_eq]
  refine ends_ask_bind ⟨le_rfl, (Unrecorded.refl before).turn⟩ fun _ isOpen => ?_
  have wasOpen := checkOpen_eq_ok_iff_isOpen?.mp isOpen
  exact (ends_discardTransaction (live_of_isOpen? wasOpen)).imp fun _ _ discards =>
    ⟨discards.grows, discards.turn wasOpen⟩

/-- A transaction goes with one of its splits, or the split goes unrecorded. -/
theorem Action.ends_destroySplit_turn (split : SplitId) : (destroySplit split).Ends before fun _ after =>
    before.minted ≤ after.minted ∧ ∀ other, before.Turn False after other := by
  have unrecorded {after : Ledger α J} (quiet : before.Unrecorded after) :
      before.minted ≤ after.minted ∧ ∀ other, before.Turn False after other :=
    ⟨quiet.grows, quiet.turn⟩
  refine ends_destroySplit_of (unrecorded (.refl before)) (fun owner transaction member => ?_)
    fun owner _ _ _ => ?_
  · have wasOpen := checkOpen_eq_ok_iff_isOpen?.mp <|
      checkOpen_eq_ok_iff.mpr ⟨transaction, member.isOwner, member.isOpen⟩
    refine (ends_discardTransaction (live_of_isOpen? wasOpen)).imp fun result after discards => ?_
    exact ⟨discards.grows, discards.turn wasOpen⟩
  · have quiet := Unrecorded.keeps_removal owner split before (.refl before)
    exact quiet.imp fun _ _ => unrecorded

end Turns

/-! ## All deeds -/

/-- A command that is to open or close a session of a transaction. -/
def Command.Turns {α : Type} (id : TransactionId) : Command α → Prop
  | .beginEdit transaction _ | .commitEdit transaction => transaction = id
  | _ => False

/-- A session of a transaction is to be opened or closed, and the journal fails. -/
def Deed.Slips {α J : Type} [Scalar α] [Journal J α] (ledger : Ledger α J) (id : TransactionId) :
    Deed α J → Prop
  | .command request =>
    request.Turns id ∧ ∃ message, (request.run ledger).result = .error (.journal message)
  | _ => False

/-- The journal is left to the ledger, or replaced by one with the same records. -/
def Deed.KeepsRecords {α J : Type} [Chronicle J α] (ledger : Ledger α J) : Deed α J → Prop
  | .setJournal journal => Chronicle.records journal = Chronicle.records ledger.journal
  | _ => True

section Deeds

variable {α J : Type} [Scalar α] [Chronicle J α] {before : Ledger α J}

omit [Scalar α] in
private theorem ends_reply_turn {β γ : Type} {action : Action α J β} {reply : β → γ}
    {turns : TransactionId → Prop}
    (ends : action.Ends before fun result after => before.minted ≤ after.minted ∧
      (after.minted ≤ 2 ^ 128 → ∀ id,
        before.Turn (turns id ∧ ∃ message, result = .error (.journal message)) after id)) :
    (action >>= fun value => pure (reply value)).Ends before fun result after =>
      before.minted ≤ after.minted ∧ (after.minted ≤ 2 ^ 128 → ∀ id,
        before.Turn (turns id ∧ ∃ message, result = .error (.journal message)) after id) := by
  rw [ends_bind]
  refine ends.imp fun result after ⟨grows, turn⟩ => ?_
  cases result with
  | ok _ => exact ⟨grows, fun fresh id => (turn fresh id).imp nofun⟩
  | error fault =>
    refine ⟨grows, fun fresh id => (turn fresh id).imp fun ⟨turns, message, failed⟩ => ?_⟩
    exact ⟨turns, message, congrArg _ (Except.error.inj failed)⟩

/-- What a command does to every transaction. -/
theorem Action.ends_act_turn (command : Command α) : (command.act (J := J)).Ends before
    fun result after => before.minted ≤ after.minted ∧ (after.minted ≤ 2 ^ 128 → ∀ id,
      before.Turn (command.Turns id ∧ ∃ message, result = .error (.journal message)) after id) := by
  cases session : command.isSession with
  | false =>
    refine (Unrecorded.keeps_act session before (.refl before)).imp fun _ _ quiet => ?_
    exact ⟨quiet.grows, fun _ id => quiet.turn id⟩
  | true =>
    cases command with
    | createTransaction =>
      refine ends_reply_turn (ends_createTransaction_turn.imp fun _ _ ⟨grows, turn⟩ => ?_)
      exact ⟨grows, fun fresh id => (turn fresh id).imp False.elim⟩
    | beginEdit id defer =>
      refine ends_reply_turn ((ends_beginEdit id defer).imp fun _ _ begins => ?_)
      exact ⟨begins.grows, fun _ => begins.turn⟩
    | commitEdit id =>
      refine ends_reply_turn ((ends_commitEdit id).imp fun _ _ commits => ?_)
      exact ⟨commits.grows, fun _ => commits.turn⟩
    | destroyTransaction id =>
      refine ends_reply_turn ((ends_destroyTransaction_turn id).imp fun _ _ ⟨grows, turn⟩ => ?_)
      exact ⟨grows, fun _ id => (turn id).imp False.elim⟩
    | destroySplit split =>
      refine ends_reply_turn ((ends_destroySplit_turn split).imp fun _ _ ⟨grows, turn⟩ => ?_)
      exact ⟨grows, fun _ id => (turn id).imp False.elim⟩
    | _ => nomatch session

/-- What a deed does to every transaction, as long as no identifier is given out twice. -/
theorem Deed.turn (deed : Deed α J) (keeps : deed.KeepsRecords before) :
    before.minted ≤ (deed.apply before).minted ∧ ((deed.apply before).minted ≤ 2 ^ 128 → ∀ id,
      before.Turn (deed.Slips before id) (deed.apply before) id) := by
  cases deed with
  | command request => exact ends_act_turn request
  | openAccount _ _ _ => exact ⟨Nat.le_succ _, fun _ _ => .rests rfl rfl⟩
  | setDefers _ _ | clearChanged _ | markChanged _ | setClock _ | setAccounts _ =>
    exact ⟨le_rfl, fun _ _ => .rests rfl rfl⟩
  | setJournal _ => exact ⟨le_rfl, fun _ id => .rests rfl (Chronicle.about_of_told keeps id)⟩

omit [Scalar α] [Chronicle J α] in
private theorem ends_done_fails {action : Action α J Unit} {fails : Prop}
    (ends : action.Ends before fun result _ => ∀ message, result = .error (.journal message) → fails) :
    (Command.act.done action).Ends before
      fun result _ => ∀ message, result = .error (.journal message) → fails := by
  refine ends_bind.mpr (ends.imp fun result _ blamed => ?_)
  cases result with
  | ok _ => exact nofun
  | error fault => exact fun message failed => blamed message (congrArg _ (Except.error.inj failed))

theorem Deed.fails_of_slips {deed : Deed α J} {id : TransactionId} (slips : deed.Slips before id) :
    ∃ fault, Journal.Fails J fault := by
  cases deed with
  | command request =>
    obtain ⟨turns, message, failed⟩ := slips
    cases request with
    | beginEdit other defer =>
      exact ends_done_fails ((ends_beginEdit other defer).imp fun _ _ begins _ => begins.fails) message failed
    | commitEdit other =>
      exact ends_done_fails ((ends_commitEdit other).imp fun _ _ commits _ => commits.fails) message failed
    | _ => exact turns.elim
  | _ => exact slips.elim

end Deeds

end DoubleEntry
