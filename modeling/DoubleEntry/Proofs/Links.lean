import DoubleEntry.Ident.Basic
import Mathlib

/-! # Links kept in both directions

A member names the holder that it is in, and a holder lists its members. `Links.Agree` says that the
two directions tell the same, and every change of a link is one of three: a member goes to a place
(`move`), an empty holder comes in (`addHolder`), a holder goes away with its members (`dissolve`). The
order in which a holder lists its members does not count here.
-/

namespace DoubleEntry

/-- Both directions of a link, as look-ups that find nothing for what does not exist. -/
@[ext] structure Links (κ ι : Type) where
  named : κ → Option (Option ι)
  listed : ι → Option (Multiset κ)

namespace Links

variable {κ ι : Type} {links : Links κ ι} {member : κ} {holder : ι} {members : Multiset κ}
  {name : Option (Option ι)}

/-- Holders list exactly the members that name them, each once. -/
structure Agree (links : Links κ ι) : Prop where
  nodup : ∀ {holder members}, links.listed holder = some members → members.Nodup
  mem_iff : ∀ {holder members}, links.listed holder = some members →
    ∀ member, member ∈ members ↔ links.named member = some (some holder)
  known : ∀ {member holder}, links.named member = some (some holder) →
    (links.listed holder).isSome

/-- No holder is without members. -/
def Occupied (links : Links κ ι) : Prop :=
  ∀ ⦃holder members⦄, links.listed holder = some members → members ≠ 0

theorem Agree.not_mem (agree : links.Agree) (listed : links.listed holder = some members)
    (other : links.named member ≠ some (some holder)) : member ∉ members :=
  fun inside => other ((agree.mem_iff listed member).mp inside)

section Changes

variable [DecidableEq κ] [DecidableEq ι]

/-- The members of a holder after one member went to a place. -/
def settled (member : κ) (name : Option (Option ι)) (holder : ι) (members : Multiset κ) :
    Multiset κ :=
  if name = some (some holder) then member ::ₘ members.filter (· ≠ member)
  else members.filter (· ≠ member)

/-- Sends a member, which may be new, to a holder, out of all holders, or out of existence. -/
def move (links : Links κ ι) (member : κ) (name : Option (Option ι)) : Links κ ι where
  named := Function.update links.named member name
  listed holder := (links.listed holder).map (settled member name holder)

/-- Adds a holder without members. -/
def addHolder (links : Links κ ι) (holder : ι) : Links κ ι :=
  { links with listed := Function.update links.listed holder (some 0) }

/-- Removes a holder and all its members. -/
def dissolve (links : Links κ ι) (holder : ι) : Links κ ι where
  named member := if links.named member = some (some holder) then none else links.named member
  listed := Function.update links.listed holder none

theorem mem_settled {other : κ} :
    other ∈ settled member name holder members ↔
      if other = member then name = some (some holder) else other ∈ members := by
  unfold settled
  by_cases same : other = member <;> by_cases here : name = some (some holder) <;> simp [same, here]

theorem settled_eq_self (outside : member ∉ members) (elsewhere : name ≠ some (some holder)) :
    settled member name holder members = members := by
  rw [settled, if_neg elsewhere, Multiset.filter_eq_self]
  exact fun other inside same => outside (same ▸ inside)

theorem settled_of_elsewhere (elsewhere : name ≠ some (some holder)) :
    settled member name holder = Multiset.filter (· ≠ member) := by
  funext members
  exact if_neg elsewhere

theorem settled_here : settled member (some (some holder)) holder =
    fun members => member ::ₘ members.filter (· ≠ member) := by
  funext members
  exact if_pos rfl

theorem settled_of_outside (outside : member ∉ members) :
    settled member (some (some holder)) holder members = member ::ₘ members := by
  rw [settled, if_pos rfl, Multiset.filter_eq_self.mpr]
  exact fun other inside same => outside (same ▸ inside)

/-- A move keeps both directions in agreement if it ends at a holder that exists. -/
theorem Agree.move (agree : links.Agree)
    (ends : ∀ holder, name = some (some holder) → (links.listed holder).isSome) :
    (links.move member name).Agree := by
  constructor
  case nodup =>
    intro holder after listed
    obtain ⟨before, found, rfl⟩ := Option.map_eq_some_iff.mp listed
    have distinct := (agree.nodup found).filter (· ≠ member)
    unfold settled
    split
    · exact Multiset.nodup_cons.mpr ⟨by simp, distinct⟩
    · exact distinct
  case mem_iff =>
    intro holder after listed other
    obtain ⟨before, found, rfl⟩ := Option.map_eq_some_iff.mp listed
    simp only [mem_settled, Links.move, Function.update_apply]
    split
    · rfl
    · exact agree.mem_iff found other
  case known =>
    intro other holder named
    simp only [Links.move, Function.update_apply, Option.isSome_map] at named ⊢
    split at named
    · exact ends holder named
    · exact agree.known named

/-- A move leaves no holder empty if the holder that it leaves has another member. -/
theorem Occupied.move (occupied : links.Occupied) (agree : links.Agree)
    (company : ∀ {holder members}, links.named member = some (some holder) →
      name ≠ some (some holder) → links.listed holder = some members →
      ∃ other ∈ members, other ≠ member) :
    (links.move member name).Occupied := by
  intro holder after listed
  obtain ⟨before, found, rfl⟩ := Option.map_eq_some_iff.mp listed
  by_cases here : name = some (some holder)
  · simp [settled, here]
  · by_cases left : links.named member = some (some holder)
    · obtain ⟨other, inside, different⟩ := company left here found
      have stays : other ∈ settled member name holder before := by
        rw [mem_settled, if_neg different]
        exact inside
      exact fun empty => Multiset.notMem_zero other (empty ▸ stays)
    · rw [settled_eq_self (agree.not_mem found left) here]
      exact occupied found

omit [DecidableEq κ] in
theorem Agree.addHolder (agree : links.Agree) (new : links.listed holder = none) :
    (links.addHolder holder).Agree := by
  have unnamed (member : κ) : links.named member ≠ some (some holder) := fun named => by
    simpa [new] using agree.known named
  constructor
  case nodup =>
    intro other members listed
    simp only [Links.addHolder, Function.update_apply] at listed
    split at listed
    · cases listed
      exact Multiset.nodup_zero
    · exact agree.nodup listed
  case mem_iff =>
    intro other members listed member
    simp only [Links.addHolder, Function.update_apply] at listed ⊢
    split at listed
    · subst_vars
      cases listed
      simp [unnamed]
    · exact agree.mem_iff listed member
  case known =>
    intro member other named
    simp only [Links.addHolder, Function.update_apply]
    split
    · rfl
    · exact agree.known named

omit [DecidableEq κ] in
theorem Agree.dissolve (agree : links.Agree) : (links.dissolve holder).Agree := by
  constructor
  case nodup =>
    intro other members listed
    simp only [Links.dissolve, Function.update_apply] at listed
    split at listed
    · contradiction
    · exact agree.nodup listed
  case mem_iff =>
    intro other members listed member
    simp only [Links.dissolve, Function.update_apply] at listed ⊢
    split at listed
    · contradiction
    · rename_i other_ne
      rw [agree.mem_iff listed member]
      by_cases gone : links.named member = some (some holder)
      · simp [gone, Ne.symm other_ne]
      · simp [gone]
  case known =>
    intro member other named
    simp only [Links.dissolve, Function.update_apply] at named ⊢
    split at named
    · contradiction
    · rename_i stays
      rw [if_neg fun same : other = holder => stays (same ▸ named)]
      exact agree.known named

omit [DecidableEq κ] in
theorem Occupied.dissolve (occupied : links.Occupied) : (links.dissolve holder).Occupied := by
  intro other members listed
  simp only [Links.dissolve, Function.update_apply] at listed
  split at listed
  · contradiction
  · exact occupied listed

/-- A move between a holder and no holder changes what that holder lists, and no other. -/
theorem Agree.move_eq (agree : links.Agree) (holder : ι)
    (only : ∀ other, other ≠ holder →
      links.named member ≠ some (some other) ∧ name ≠ some (some other)) :
    links.move member name = ⟨Function.update links.named member name,
      Function.update links.listed holder
        ((links.listed holder).map (settled member name holder))⟩ := by
  unfold Links.move
  congr 1
  funext other
  rw [Function.update_apply]
  split
  · subst_vars
    rfl
  · obtain ⟨unnamed, elsewhere⟩ := only other ‹_›
    cases listed : links.listed other with
    | none => rfl
    | some members => exact congrArg some (settled_eq_self (agree.not_mem listed unnamed) elsewhere)

/-- A new holder comes with a new member. -/
theorem Agree.addHolder_move (agree : links.Agree) (new : links.named member = none)
    (unlisted : links.listed holder = none) :
    (links.addHolder holder).move member (some (some holder)) =
      ⟨Function.update links.named member (some (some holder)),
        Function.update links.listed holder (some {member})⟩ := by
  rw [(agree.addHolder unlisted).move_eq holder]
  · simp [Links.addHolder, settled_here]
  · intro other different
    simp [Links.addHolder, new, different.symm]

theorem Occupied.addHolder_move (occupied : links.Occupied) (agree : links.Agree)
    (new : links.named member = none) (unlisted : links.listed holder = none) :
    ((links.addHolder holder).move member (some (some holder))).Occupied := by
  intro other members listed
  simp only [agree.addHolder_move new unlisted, Function.update_apply] at listed
  split at listed
  · cases listed
    exact Multiset.singleton_ne_zero member
  · exact occupied listed

/-- A member outside all holders changes none of them by coming or going. -/
theorem Agree.move_of_unheld (agree : links.Agree)
    (unheld : ∀ holder, links.named member ≠ some (some holder))
    (free : ∀ holder, name ≠ some (some holder)) :
    links.move member name = ⟨Function.update links.named member name, links.listed⟩ := by
  unfold Links.move
  congr 1
  funext holder
  cases listed : links.listed holder with
  | none => rfl
  | some members =>
    exact congrArg some (settled_eq_self (agree.not_mem listed (unheld holder)) (free holder))

/-- A member that goes where it is stays there. -/
theorem Agree.move_self (agree : links.Agree) : links.move member (links.named member) = links := by
  have moved : (links.move member (links.named member)).Agree := agree.move fun _ => agree.known
  unfold Links.move
  rw [Function.update_eq_self]
  congr 1
  funext holder
  cases listed : links.listed holder with
  | none => rfl
  | some members =>
    have lists : (links.move member (links.named member)).listed holder =
        some (settled member (links.named member) holder members) := by
      simp only [Links.move, listed, Option.map_some]
    have distinct := moved.nodup lists
    refine congrArg some ((distinct.ext (agree.nodup listed)).mpr fun other => ?_)
    rw [mem_settled]
    split
    · subst_vars
      exact (agree.mem_iff listed other).symm
    · rfl

/-- Only the last of two moves of a member counts. -/
theorem move_move (links : Links κ ι) (member : κ) (first second : Option (Option ι)) :
    (links.move member first).move member second = links.move member second := by
  unfold Links.move
  rw [Function.update_idem]
  congr 1
  funext holder
  rw [Option.map_map]
  congr 1
  funext members
  have same : (settled member first holder members).filter (· ≠ member) =
      members.filter (· ≠ member) := by
    unfold settled
    split <;> simp
  rw [Function.comp_apply, settled, same, settled]

end Changes

/-! ## Numbered identifiers -/

/-- Every identifier in the links has a number below a bound. -/
structure Below {κ ι : EntityKind} (links : Links (EntityId κ) (EntityId ι)) (bound : Nat) :
    Prop where
  named : ∀ {member}, (links.named member).isSome → member.ident.toNat < bound
  listed : ∀ {holder}, (links.listed holder).isSome → holder.ident.toNat < bound

section Numbers

variable {κ ι : EntityKind} {links : Links (EntityId κ) (EntityId ι)} {bound larger : Nat}
  {member : EntityId κ} {holder : EntityId ι} {name : Option (Option (EntityId ι))}

theorem Below.mono (below : links.Below bound) (le : bound ≤ larger) : links.Below larger :=
  ⟨fun found => (below.named found).trans_le le, fun found => (below.listed found).trans_le le⟩

theorem toNat_ofNat {number : Nat} (small : number < 2 ^ 128) : (Ident.ofNat number).toNat = number := by
  simp only [Ident.toNat, Ident.ofNat, BitVec.toNat_ofNat, Nat.mod_eq_of_lt small]

/-- The next number is no member's. -/
theorem Below.named_next (below : links.Below bound) (small : bound < 2 ^ 128) :
    links.named ⟨Ident.ofNat bound⟩ = none := by
  cases found : links.named ⟨Ident.ofNat bound⟩ with
  | none => rfl
  | some _ =>
    have live : (links.named ⟨Ident.ofNat bound⟩).isSome := by rw [found]; rfl
    have less := below.named live
    rw [toNat_ofNat small] at less
    exact absurd less (lt_irrefl _)

/-- The next number is no holder's. -/
theorem Below.listed_next (below : links.Below bound) (small : bound < 2 ^ 128) :
    links.listed ⟨Ident.ofNat bound⟩ = none := by
  cases found : links.listed ⟨Ident.ofNat bound⟩ with
  | none => rfl
  | some _ =>
    have live : (links.listed ⟨Ident.ofNat bound⟩).isSome := by rw [found]; rfl
    have less := below.listed live
    rw [toNat_ofNat small] at less
    exact absurd less (lt_irrefl _)

theorem Below.move (below : links.Below bound)
    (numbered : name.isSome → member.ident.toNat < bound) : (links.move member name).Below bound := by
  constructor
  · intro other found
    simp only [Links.move, Function.update_apply] at found
    split at found
    · subst_vars
      exact numbered found
    · exact below.named found
  · intro holder found
    simp only [Links.move, Option.isSome_map] at found
    exact below.listed found

theorem Below.addHolder (below : links.Below bound) (numbered : holder.ident.toNat < bound) :
    (links.addHolder holder).Below bound := by
  refine ⟨below.named, ?_⟩
  intro other found
  simp only [Links.addHolder, Function.update_apply] at found
  split at found
  · subst_vars
    exact numbered
  · exact below.listed found

theorem Below.dissolve (below : links.Below bound) : (links.dissolve holder).Below bound := by
  constructor
  · intro member found
    simp only [Links.dissolve] at found
    split at found
    · contradiction
    · exact below.named found
  · intro other found
    simp only [Links.dissolve, Function.update_apply] at found
    split at found
    · contradiction
    · exact below.listed found

end Numbers

end Links

end DoubleEntry
