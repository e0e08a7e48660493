import DoubleEntry.Proofs.Turning

/-! # The journal of a run

While the journal does not fail, the records of a transaction are the story of its sessions, and its last
record says whether it is open, closed or gone. A journal in memory never fails. There the last record of a
closed transaction also shows it as it still is, unless it was rebalanced directly.
-/

namespace DoubleEntry

open DoubleEntry.Action Ledger Computability

/-! ## Words of records -/

namespace EventKind

/-- Rounds of sessions that are over: each is begun, maybe more than once, and committed. -/
def rounds : Language EventKind := ({[.began]} * {[.began]}∗ * {[.committed]})∗

/-- The records of a transaction. It is destroyed in a session, if at all. -/
def story : Language EventKind := rounds * {[.began]}∗ + rounds * ({[.began]} * {[.began]}∗) * {[.destroyed]}

/-- The records of a transaction that is open or closed, or is gone. -/
def storyOf : Option Bool → Language EventKind
  | some false => rounds
  | some true => rounds * ({[.began]} * {[.began]}∗)
  | none => rounds * ({[.began]} * {[.began]}∗) * {[.destroyed]}

variable {status : Option Bool} {kinds : List EventKind}

theorem storyOf_le_story : storyOf status ≤ story := by
  cases status with
  | none => exact le_sup_right
  | some isOpen =>
    refine le_trans ?_ le_sup_left
    cases isOpen with
    | false => exact le_mul_of_one_le_right' one_le_kstar
    | true => exact mul_le_mul_right mul_kstar_le_kstar _

theorem append_mem_mul {language : Language EventKind} {kind : EventKind} (word : kinds ∈ language) :
    kinds ++ [kind] ∈ language * {[kind]} := Language.append_mem_mul word rfl

/-- A session may begin again before it is over. -/
theorem storyOf_begins (word : kinds ∈ storyOf status) (live : status.isSome) :
    kinds ++ [.began] ∈ storyOf (some true) := by
  have next : kinds ++ [.began] ∈ storyOf status * {[.began]} := append_mem_mul word
  obtain ⟨isOpen, rfl⟩ := Option.isSome_iff_exists.mp live
  refine (?_ : storyOf (some isOpen) * {[.began]} ≤ storyOf (some true)) next
  cases isOpen with
  | false => exact mul_le_mul_right (le_mul_of_one_le_right' one_le_kstar) _
  | true =>
    change rounds * ({[.began]} * {[.began]}∗) * {[.began]} ≤ _
    rw [mul_assoc, mul_assoc]
    exact mul_le_mul_right (mul_le_mul_right kstar_mul_le_kstar _) _

theorem storyOf_commits (word : kinds ∈ storyOf (some true)) :
    kinds ++ [.committed] ∈ storyOf (some false) := by
  have next : kinds ++ [.committed] ∈ rounds * ({[.began]} * {[.began]}∗) * {[.committed]} :=
    append_mem_mul word
  rw [mul_assoc] at next
  exact (kstar_mul_le_kstar : rounds * _ ≤ rounds) next

theorem storyOf_destroys (word : kinds ∈ storyOf (some true)) :
    kinds ++ [.destroyed] ∈ storyOf none := append_mem_mul word

/-- What the last record says of a transaction: whether it is open, if it is still there. -/
def statusOf : Option EventKind → Option Bool
  | some .began => some true
  | none | some .committed => some false
  | some .destroyed => none

/-- Records that tell the story of a transaction up to where it is now. -/
structure Tells (kinds : List EventKind) (status : Option Bool) : Prop where
  word : kinds ∈ storyOf status
  last : status = statusOf kinds.getLast?

/-- Whether a transaction is open, gone or closed is seen from its last record. -/
theorem Tells.status_iff (tells : Tells kinds status) :
    (status = some true ↔ kinds.getLast? = some .began) ∧
      (status = none ↔ kinds.getLast? = some .destroyed) ∧
      (status = some false ↔ kinds.getLast? = none ∨ kinds.getLast? = some .committed) := by
  rw [tells.last]
  generalize kinds.getLast? = last
  rcases last with _ | _ | _ | _ <;> simp [statusOf]

theorem tells_nil : Tells [] (some false) := ⟨Language.nil_mem_kstar _, rfl⟩

theorem Tells.begins (tells : Tells kinds status) (live : status.isSome) :
    Tells (kinds ++ [.began]) (some true) :=
  ⟨storyOf_begins tells.word live, by rw [List.getLast?_concat, statusOf]⟩

theorem Tells.commits (tells : Tells kinds (some true)) : Tells (kinds ++ [.committed]) (some false) :=
  ⟨storyOf_commits tells.word, by rw [List.getLast?_concat, statusOf]⟩

theorem Tells.destroys (tells : Tells kinds (some true)) : Tells (kinds ++ [.destroyed]) none :=
  ⟨storyOf_destroys tells.word, by rw [List.getLast?_concat, statusOf]⟩

end EventKind

/-! ## Runs -/

/-- The ledgers at the end of runs of allowed deeds whose journal had no records at first, with the
transactions that there were at some time. -/
inductive Recorded {α J : Type} [Scalar α] [Chronicle J α] (allowed : Ledger α J → Deed α J → Prop) :
    Set TransactionId → Ledger α J → Prop
  | start (settings : Settings) (journal : J) (blank : Chronicle.records journal = []) :
    Recorded allowed ∅ (.start settings journal)
  | step {been : Set TransactionId} {ledger : Ledger α J} (recorded : Recorded allowed been ledger)
    (deed : Deed α J) (may : allowed ledger deed) (fresh : (deed.apply ledger).minted ≤ 2 ^ 128) :
    Recorded allowed (been ∪ {id | ((deed.apply ledger).transaction? id).isSome}) (deed.apply ledger)

/-- The kinds of the records of a transaction, oldest first. -/
def Ledger.kindsOf {α J : Type} [Chronicle J α] (ledger : Ledger α J) (id : TransactionId) :
    List EventKind := (Chronicle.about ledger.journal id).map (·.kind)

namespace Recorded

variable {α J : Type} [Scalar α] [Chronicle J α] {allowed weaker : Ledger α J → Deed α J → Prop}
  {been : Set TransactionId} {ledger : Ledger α J} {id : TransactionId}

theorem reachable (recorded : Recorded allowed been ledger) : Reachable (fun _ => True) ledger := by
  induction recorded with
  | start settings journal _ => exact .start settings journal
  | step _ deed _ fresh ih => exact ih.step deed trivial fresh

theorem mono (recorded : Recorded allowed been ledger)
    (step : ∀ ledger deed, allowed ledger deed → weaker ledger deed) : Recorded weaker been ledger := by
  induction recorded with
  | start settings journal blank => exact .start settings journal blank
  | step _ deed may fresh ih => exact ih.step deed (step _ deed may) fresh

theorem mem_of_live (recorded : Recorded allowed been ledger) (live : (ledger.transaction? id).isSome) :
    id ∈ been := by
  cases recorded with
  | start _ _ _ => contradiction
  | step _ _ _ _ => exact .inr live

theorem after (recorded : Recorded allowed been ledger) (deeds : List (Deed α J))
    (may : ∀ deed ∈ deeds, ∀ ledger, allowed ledger deed)
    (fresh : ∀ count ≤ deeds.length, (ledger.after (deeds.take count)).minted ≤ 2 ^ 128) :
    ∃ later, been ⊆ later ∧ Recorded allowed later (ledger.after deeds) := by
  induction deeds generalizing been ledger with
  | nil => exact ⟨been, subset_rfl, recorded⟩
  | cons deed rest ih =>
    have next := recorded.step deed (may deed List.mem_cons_self ledger) (fresh 1 (by simp))
    obtain ⟨later, grows, ends⟩ := ih next (fun other inside => may other (List.mem_cons_of_mem deed inside))
      fun count short => fresh (count + 1) (Nat.succ_le_succ short)
    exact ⟨later, Set.subset_union_left.trans grows, ends⟩

/-- What is known of a transaction in the course of a run: nothing was recorded of it before it was there,
and from then on it is as its last record says. -/
structure Known (been : Set TransactionId) (ledger : Ledger α J) (id : TransactionId) : Prop where
  numbered : id ∈ been → id.ident.toNat < ledger.minted
  unborn : id ∉ been → ledger.isOpen? id = none ∧ Chronicle.about ledger.journal id = []
  told : id ∈ been → EventKind.Tells (ledger.kindsOf id) (ledger.isOpen? id)

omit [Scalar α] in
theorem kindsOf_append {after : Ledger α J} {record : Record α}
    (told : Chronicle.about after.journal id = Chronicle.about ledger.journal id ++ [record]) :
    after.kindsOf id = ledger.kindsOf id ++ [record.kind] := by
  rw [kindsOf, told, List.map_append]
  rfl

omit [Scalar α] in
/-- A deed that does not slip keeps a transaction in step with its records. -/
theorem Known.step {after : Ledger α J} (known : Known been ledger id) (grows : ledger.minted ≤ after.minted)
    (below : (after.transaction? id).isSome → id.ident.toNat < after.minted)
    (turn : ledger.Turn False after id) :
    Known (been ∪ {id | (after.transaction? id).isSome}) after id := by
  have numbered : id ∈ been ∪ {id | (after.transaction? id).isSome} → id.ident.toNat < after.minted :=
    fun inside => inside.elim (fun old => (known.numbered old).trans_le grows) below
  by_cases inside : id ∈ been
  · refine ⟨numbered, fun outside => absurd (.inl inside) outside, fun _ => ?_⟩
    have tells := known.told inside
    cases turn with
    | rests status told => rwa [kindsOf, told, status]
    | born unnumbered _ _ => exact absurd (known.numbered inside) (by omega)
    | begins record isKind live status told =>
      rw [kindsOf_append told, isKind, status]
      exact tells.begins live
    | commits record isKind _ wasOpen status told =>
      rw [kindsOf_append told, isKind, status]
      exact EventKind.Tells.commits (wasOpen ▸ tells)
    | destroys record isKind wasOpen status told =>
      rw [kindsOf_append told, isKind, status]
      exact EventKind.Tells.destroys (wasOpen ▸ tells)
    | slips slipped => exact slipped.elim
  · obtain ⟨absent, silent⟩ := known.unborn inside
    cases turn with
    | rests status told =>
      have gone : ¬ (after.transaction? id).isSome := by
        rw [← isSome_isOpen?, status, absent]
        exact Bool.false_ne_true
      exact ⟨numbered, fun _ => ⟨status.trans absent, told.trans silent⟩,
        fun born => (born.elim inside gone).elim⟩
    | born _ status told =>
      have live : (after.transaction? id).isSome := live_of_isOpen? status
      refine ⟨numbered, fun outside => absurd (.inr live) outside, fun _ => ?_⟩
      rw [kindsOf, told, silent, status]
      exact EventKind.tells_nil
    | begins _ _ live | slips _ _ live => rw [absent] at live; contradiction
    | commits _ _ _ wasOpen | destroys _ _ wasOpen => rw [absent] at wasOpen; contradiction

/-- The run of a journal in which no session of a transaction slipped. -/
theorem known (recorded : Recorded (fun ledger deed => deed.KeepsRecords ledger ∧ ¬ deed.Slips ledger id)
    been ledger) : Known been ledger id := by
  induction recorded with
  | start settings journal blank =>
    refine ⟨nofun, fun _ => ⟨rfl, ?_⟩, nofun⟩
    change Chronicle.about journal id = []
    rw [Chronicle.about, blank, List.filter_nil]
  | step before deed may fresh ih =>
    have owned := (before.reachable.step deed trivial fresh).owned
    obtain ⟨grows, turn⟩ := deed.turn may.1
    refine ih.step grows (fun live => owned.below.listed ?_) ((turn fresh id).imp may.2)
    exact Option.isSome_map.trans live

end Recorded

end DoubleEntry
