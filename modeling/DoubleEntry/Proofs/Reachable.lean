import DoubleEntry.Ledger.Command
import DoubleEntry.Proofs.Action
import Mathlib

/-! # Reachable ledgers

A ledger changes by commands, and by what the owners of its book of accounts, its journal and its clock
do to these. A run is any sequence of such deeds from a ledger without entries, failed commands
included. It ends before the counter of identifiers comes round, so that none is given out twice.
-/

namespace DoubleEntry

inductive Deed (α J : Type) where
  | command (command : Command α)
  | openAccount (name : String) (currency : Commodity) (security : Option Commodity)
  | setDefers (account : AccountId) (defers : Bool)
  | clearChanged (account : AccountId)
  | markChanged (account : AccountId)
  | setClock (now : Instant)
  /-- The journal in any other state, or another one. -/
  | setJournal (journal : J)
  /-- Any other book, with whatever registers. -/
  | setAccounts (accounts : Book)

namespace Deed

variable {α J : Type} [Scalar α] [Journal J α]

def apply : Deed α J → Ledger α J → Ledger α J
  | .command request, ledger => (request.run ledger).ledger
  | .openAccount name currency security, ledger => (ledger.openAccount name currency security).2
  | .setDefers account defers, ledger => ledger.setDefers account defers
  | .clearChanged account, ledger => ledger.clearChanged account
  | .markChanged account, ledger => ledger.markChanged account
  | .setClock now, ledger => ledger.setClock now
  | .setJournal journal, ledger => { ledger with journal }
  | .setAccounts accounts, ledger => { ledger with accounts }

omit [Scalar α] [Journal J α] in
/-- The owner of the book opens accounts and sets their flags, and leaves registers to the ledger. -/
def LeavesRegisters : Deed α J → Prop
  | .setAccounts _ => False
  | _ => True

instance : DecidablePred (LeavesRegisters (α := α) (J := J)) := fun deed => by
  cases deed <;> dsimp only [LeavesRegisters] <;> infer_instance

end Deed

/-- The ledgers at the end of runs of allowed deeds. -/
inductive Reachable {α J : Type} [Scalar α] [Journal J α] (allowed : Deed α J → Prop) :
    Ledger α J → Prop
  | start (settings : Settings) (journal : J) : Reachable allowed (.start settings journal)
  | step {ledger : Ledger α J} (reached : Reachable allowed ledger) (deed : Deed α J)
    (may : allowed deed) (fresh : (deed.apply ledger).minted ≤ 2 ^ 128) :
    Reachable allowed (deed.apply ledger)

/-- A property that holds as long as no identifier was given out twice. -/
def WhileFresh {α J : Type} (holds : Ledger α J → Prop) (ledger : Ledger α J) : Prop :=
  ledger.minted ≤ 2 ^ 128 → holds ledger

variable {α J : Type} [Scalar α] [Journal J α]

/-- What holds at the start and is kept by every allowed deed holds at the end of every run. -/
theorem Reachable.induct {allowed : Deed α J → Prop} {holds : Ledger α J → Prop}
    {ledger : Ledger α J} (reached : Reachable allowed ledger)
    (start : ∀ settings journal, holds (.start settings journal))
    (step : ∀ deed, allowed deed → ∀ ledger, holds ledger → holds (deed.apply ledger)) :
    holds ledger := by
  induction reached with
  | start settings journal => exact start settings journal
  | step _ deed may _ ih => exact step deed may _ ih

theorem Reachable.minted_le {allowed : Deed α J → Prop} {ledger : Ledger α J}
    (reached : Reachable allowed ledger) : ledger.minted ≤ 2 ^ 128 := by
  cases reached with
  | start _ _ => exact Nat.zero_le _
  | step _ _ _ fresh => exact fresh

/-- The ledger after some deeds, one after another. -/
def Ledger.after (deeds : List (Deed α J)) (ledger : Ledger α J) : Ledger α J :=
  deeds.foldl (fun ledger deed => deed.apply ledger) ledger

theorem Reachable.after {allowed : Deed α J → Prop} {ledger : Ledger α J}
    (reached : Reachable allowed ledger) (deeds : List (Deed α J))
    (may : ∀ deed ∈ deeds, allowed deed)
    (fresh : ∀ count ≤ deeds.length, (ledger.after (deeds.take count)).minted ≤ 2 ^ 128) :
    Reachable allowed (ledger.after deeds) := by
  induction deeds generalizing ledger with
  | nil => exact reached
  | cons deed rest ih =>
    refine ih (reached.step deed (may deed List.mem_cons_self) (fresh 1 (by simp)))
      (fun other later => may other (List.mem_cons_of_mem deed later)) fun count short => ?_
    exact fresh (count + 1) (Nat.succ_le_succ short)

/-! ## Deeds that depend on the ledger -/

/-- The ledgers at the end of runs in which every deed may be done to the ledger of its time. -/
inductive Guarded (may : Ledger α J → Deed α J → Prop) : Ledger α J → Prop
  | start (settings : Settings) (journal : J) : Guarded may (.start settings journal)
  | step {ledger : Ledger α J} (guarded : Guarded may ledger) (deed : Deed α J)
    (allowed : may ledger deed) (fresh : (deed.apply ledger).minted ≤ 2 ^ 128) :
    Guarded may (deed.apply ledger)

/-- Every deed of a list may be done when its turn comes. -/
def MayAll (may : Ledger α J → Deed α J → Prop) : Ledger α J → List (Deed α J) → Prop
  | _, [] => True
  | ledger, deed :: rest => may ledger deed ∧ MayAll may (deed.apply ledger) rest

instance MayAll.decide (may : Ledger α J → Deed α J → Prop) [∀ ledger, DecidablePred (may ledger)] :
    ∀ (ledger : Ledger α J) (deeds : List (Deed α J)), Decidable (MayAll may ledger deeds)
  | _, [] => inferInstanceAs (Decidable True)
  | ledger, deed :: rest =>
    have := MayAll.decide may (deed.apply ledger) rest
    inferInstanceAs (Decidable (may ledger deed ∧ MayAll may (deed.apply ledger) rest))

theorem Guarded.after {may : Ledger α J → Deed α J → Prop} {ledger : Ledger α J}
    (guarded : Guarded may ledger) (deeds : List (Deed α J)) (all : MayAll may ledger deeds)
    (fresh : ∀ count ≤ deeds.length, (ledger.after (deeds.take count)).minted ≤ 2 ^ 128) :
    Guarded may (ledger.after deeds) := by
  induction deeds generalizing ledger with
  | nil => exact guarded
  | cons deed rest ih =>
    refine ih (guarded.step deed all.1 (fresh 1 (by simp))) all.2 fun count short => ?_
    exact fresh (count + 1) (Nat.succ_le_succ short)

/-! ## A transaction with one side

Split 1 of transaction 2 has an amount in account 0, which put rebalancing off when it got it.
-/

section OneSided

variable {α : Type} [Scalar α]

def Deed.oneSided (amount price : α) (defers : Bool) : List (Deed α (MemoryLog α)) :=
  let account : AccountId := ⟨.ofNat 0⟩
  let source : SplitId := ⟨.ofNat 1⟩
  let transaction : TransactionId := ⟨.ofNat 2⟩
  [.openAccount "Cash" ⟨"USD", by decide⟩ none, .command .createTransaction,
    .command (.beginEdit transaction false), .command (.enterAccount account source),
    .setDefers account true, .command (.setPriceAndAmount source price amount),
    .setDefers account defers]

/-- The ledger with that transaction, under enforcement. The account may still put rebalancing off. -/
def Ledger.oneSided (amount price : α) (defers : Bool) : Ledger α (MemoryLog α) :=
  (Ledger.start ⟨.forceBalance⟩ {}).after (Deed.oneSided amount price defers)

end OneSided

/-- The currency of accounts in other runs. -/
def Commodity.dollar : Commodity := ⟨"USD", by decide⟩

end DoubleEntry
