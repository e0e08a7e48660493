import DoubleEntry.Proofs.Ranking
import DoubleEntry.Proofs.Views

/-! # Finding a place

In a register that is in order, halving finds the one place where all entries before a new one may stay
in front of it and none after it may. An entry that is at odds with neither neighbour in a register whose
other entries are in order is in its place.
-/

namespace DoubleEntry.Register

open Std

/-! ## Halving -/

section Halving

/-- What is known of a window of entries: the first of them stays in front unless it is the very first
entry, and no entry behind the window does. -/
structure Window (stays : Nat → Bool) (first size : Nat) : Prop where
  front : first = 0 ∨ stays first = true
  behind : ∀ index, first + size ≤ index → stays index = false

variable {stays : Nat → Bool}

theorem Window.halve {first size : Nat} (window : Window stays first size)
    (falls : ∀ a b, a ≤ b → stays b = true → stays a = true) :
    Window stays (if stays (first + size / 2) then first + size / 2 else first)
      (size - size / 2) := by
  split
  · rename_i goes
    exact ⟨.inr goes, fun index far => window.behind index (by omega)⟩
  · rename_i ends
    refine ⟨window.front, fun index far => ?_⟩
    by_contra goes
    exact ends (falls _ index (by omega) (by simpa using goes))

theorem narrowed_window (falls : ∀ a b, a ≤ b → stays b = true → stays a = true) {rounds : Nat} :
    ∀ {first size : Nat}, size ≤ rounds + 1 → Window stays first size →
      Window stays (narrowed stays rounds first size) 1 := by
  induction rounds with
  | zero =>
    intro first size small window
    exact ⟨window.front, fun index far => window.behind index (by simp only [narrowed] at far; omega)⟩
  | succ rounds ih =>
    intro first size small window
    unfold narrowed
    split
    · exact ⟨window.front, fun index far => window.behind index (by omega)⟩
    · exact ih (by omega) (window.halve falls)

/-- The window that is left tells apart the places that stay in front from those that do not. -/
theorem Window.boundary {last index : Nat} (window : Window stays last 1)
    (falls : ∀ a b, a ≤ b → stays b = true → stays a = true) :
    stays index = true ↔ index < if stays last then last + 1 else last := by
  split
  · rename_i goes
    refine ⟨fun stay => ?_, fun near => falls index last (by omega) goes⟩
    by_contra far
    simp [window.behind index (by omega)] at stay
  · rename_i ends
    have start : last = 0 := window.front.resolve_right ends
    refine ⟨fun stay => absurd (falls last index (by omega) stay) ends, fun near => by omega⟩

end Halving

section Places

variable {κ : Type} {keeps : κ → Bool} {entries : List κ}

/-- No entry that stays in front comes after one that does not. -/
def Falls (keeps : κ → Bool) (entries : List κ) : Prop :=
  entries.Pairwise fun a b => keeps b = true → keeps a = true

theorem Falls.any (falls : Falls keeps entries) (a b : Nat) (before : a ≤ b)
    (stay : entries[b]?.any keeps = true) : entries[a]?.any keeps = true := by
  obtain ⟨entry, found, stay⟩ := (Option.any_eq_true ..).mp stay
  obtain ⟨inside, rfl⟩ := List.getElem?_eq_some_iff.mp found
  have short : a < entries.length := by omega
  rw [List.getElem?_eq_getElem short, Option.any_some]
  rcases before.eq_or_lt with rfl | less
  · exact stay
  · exact List.pairwise_iff_getElem.mp falls a b short inside less stay

theorem Falls.place (falls : Falls keeps entries) (index : Nat) :
    entries[index]?.any keeps = true ↔ index < place keeps entries := by
  have start : Window (fun index => entries[index]?.any keeps) 0 entries.length :=
    ⟨.inl rfl, fun index far => by simp [List.getElem?_eq_none (by omega : entries.length ≤ index)]⟩
  exact (narrowed_window falls.any (Nat.le_succ _) start).boundary falls.any

/-- The place found is behind all entries that stay in front and before all others. -/
theorem Falls.split (falls : Falls keeps entries) :
    (∀ a ∈ entries.take (Register.place keeps entries), keeps a = true) ∧
      ∀ b ∈ entries.drop (Register.place keeps entries), keeps b = false := by
  constructor
  · intro a inside
    obtain ⟨index, near, rfl⟩ := List.mem_take_iff_getElem.mp inside
    have stays := (falls.place index).mpr (by omega)
    rwa [List.getElem?_eq_getElem (by omega), Option.any_some] at stays
  · intro b inside
    obtain ⟨index, near, rfl⟩ := List.mem_drop_iff_getElem.mp inside
    have ends := mt (falls.place (Register.place keeps entries + index)).mp (by omega)
    rwa [List.getElem?_eq_getElem (by omega), Option.any_some, Bool.not_eq_true] at ends

end Places

/-! ## Order -/

section Orders

variable {κ : Type} {order : κ → κ → Ordering} {entry : κ} {entries front back : List κ}

/-- No entry comes before an earlier one. -/
def InOrder (order : κ → κ → Ordering) (entries : List κ) : Prop :=
  entries.Pairwise fun a b => order a b ≠ .gt

variable [TransCmp order]

theorem InOrder.falls (sorted : InOrder order entries) (entry : κ) :
    Falls (fun other => order other entry != .gt) entries :=
  sorted.imp fun before stays => bne_iff_ne.mpr (TransCmp.le_trans before (bne_iff_ne.mp stays))

/-- An entry that finds its place comes to stand in order with all others. -/
theorem pairwise_insert [DecidableEq κ] {relation : κ → κ → Prop}
    (ordered : ∀ {a b}, order a b ≠ .gt → relation a b)
    (others : (entries.filter (· ≠ entry)).Pairwise relation)
    (falls : Falls (fun other => order other entry != .gt) (entries.filter (· ≠ entry))) :
    (Register.insert order entry entries).Pairwise relation := by
  obtain ⟨stay, follow⟩ := falls.split
  unfold Register.insert
  dsimp only
  generalize Register.place (fun other => order other entry != .gt) (entries.filter (· ≠ entry)) = index
    at stay follow
  rw [← List.take_append_drop index (entries.filter (· ≠ entry))] at others
  obtain ⟨front, back, across⟩ := List.pairwise_append.mp others
  refine List.pairwise_append.mpr ⟨front, List.pairwise_cons.mpr ⟨fun b inside => ?_, back⟩, ?_⟩
  · have after : order b entry = .gt := by simpa using follow b inside
    exact ordered (by simp [OrientedCmp.lt_of_gt after])
  · intro a inside b within
    rcases List.mem_cons.mp within with rfl | within
    · exact ordered (bne_iff_ne.mp (stay a inside))
    · exact across a inside b within

/-- An entry that is put in its place leaves a register in order whose other entries were. -/
theorem InOrder.insert [DecidableEq κ] (sorted : InOrder order (entries.filter (· ≠ entry))) :
    InOrder order (Register.insert order entry entries) :=
  pairwise_insert id sorted (sorted.falls entry)

/-- An entry that is at odds with neither neighbour is in its place if all others are. -/
theorem InOrder.of_isInPlace (sorted : InOrder order (front ++ back))
    (inPlace : isInPlace order (front ++ entry :: back) front.length entry = true) :
    InOrder order (front ++ entry :: back) := by
  obtain ⟨before, after⟩ := Bool.and_eq_true_iff.mp inPlace
  obtain ⟨fronts, backs, across⟩ := List.pairwise_append.mp sorted
  have follows : ∀ a ∈ front, order a entry ≠ .gt := by
    intro a inside
    rcases front.eq_nil_or_concat with rfl | ⟨init, last, rfl⟩
    · cases inside
    · rw [List.concat_eq_append] at *
      have next : order last entry ≠ .gt := by simpa using before
      rcases List.mem_append.mp inside with early | late
      · exact TransCmp.le_trans ((List.pairwise_append.mp fronts).2.2 a early last (by simp)) next
      · rwa [List.mem_singleton.mp late]
  have precedes : ∀ b ∈ back, order entry b ≠ .gt := by
    intro b inside
    rcases back with _ | ⟨first, rest⟩
    · cases inside
    · have next : order entry first ≠ .gt := by simpa using after
      rcases List.mem_cons.mp inside with rfl | late
      · exact next
      · exact TransCmp.le_trans next ((List.pairwise_cons.mp backs).1 b late)
  refine List.pairwise_append.mpr ⟨fronts, List.pairwise_cons.mpr ⟨precedes, backs⟩, ?_⟩
  intro a inside b within
  rcases List.mem_cons.mp within with rfl | within
  · exact follows a inside
  · exact across a inside b within

end Orders

/-! ## Going back to one's place -/

section Restored

variable {κ : Type} [DecidableEq κ] {order : κ → κ → Ordering} {entry other : κ} {entries : List κ}

theorem mem_insert : other ∈ Register.insert order entry entries ↔ other = entry ∨ other ∈ entries := by
  rw [← Multiset.mem_coe, coe_insert]
  by_cases same : other = entry <;> simp [same]

theorem nodup_insert (distinct : entries.Nodup) : (Register.insert order entry entries).Nodup := by
  rw [← Multiset.coe_nodup, coe_insert, Multiset.filter_coe, Multiset.cons_coe, Multiset.coe_nodup]
  exact List.nodup_cons.mpr ⟨by simp, distinct.filter _⟩

/-- The others of an entry that is listed once. -/
theorem filter_middle {front back : List κ} (distinct : (front ++ entry :: back).Nodup) :
    (front ++ entry :: back).filter (· ≠ entry) = front ++ back := by
  have outside := List.nodup_middle.mp distinct
  rw [List.nodup_cons, List.mem_append, not_or] at outside
  rw [List.filter_append, List.filter_cons_of_neg (by simp), List.filter_eq_self.mpr,
    List.filter_eq_self.mpr]
  · exact fun b inside => by simpa using ne_of_mem_of_not_mem inside outside.1.2
  · exact fun a inside => by simpa using ne_of_mem_of_not_mem inside outside.1.1

/-- The entries once one of them went back to its place if it had left it. -/
def restored (order : κ → κ → Ordering) (entries : List κ) (entry : κ) : List κ :=
  match entries.idxOf? entry with
  | some index => if isInPlace order entries index entry then entries
    else Register.insert order entry entries
  | none => entries

theorem restored_of_not_mem (outside : entry ∉ entries) : restored order entries entry = entries := by
  rw [restored, List.idxOf?_eq_none_iff.mpr outside]

theorem mem_restored : other ∈ restored order entries entry ↔ other ∈ entries := by
  unfold restored
  split
  · rename_i index found
    obtain ⟨short, here, -⟩ := List.idxOf?_eq_some_iff.mp found
    have inside : entry ∈ entries := here ▸ List.getElem_mem short
    split
    · rfl
    · exact mem_insert.trans (or_iff_right_of_imp fun same => same ▸ inside)
  · rfl

theorem mem_restored_all {returning : List κ} :
    other ∈ returning.foldl (restored order) entries ↔ other ∈ entries := by
  induction returning generalizing entries with
  | nil => rfl
  | cons first rest ih => exact ih.trans mem_restored

theorem nodup_restored (distinct : entries.Nodup) : (restored order entries entry).Nodup := by
  unfold restored
  split
  · split
    · exact distinct
    · exact nodup_insert distinct
  · exact distinct

variable [TransCmp order]

/-- One entry that goes back to its place puts a register in order again. -/
theorem InOrder.restored (distinct : entries.Nodup)
    (sorted : InOrder order (entries.filter (· ≠ entry))) (inside : entry ∈ entries) :
    InOrder order (Register.restored order entries entry) := by
  unfold Register.restored
  split
  · rename_i index found
    split
    · rename_i inPlace
      obtain ⟨short, here, -⟩ := List.idxOf?_eq_some_iff.mp found
      obtain ⟨front, back, rfl, rfl⟩ : ∃ front back, entries = front ++ entry :: back ∧
          index = front.length :=
        ⟨entries.take index, entries.drop (index + 1), by simp [← here], by simp [short.le]⟩
      rw [filter_middle distinct] at sorted
      exact .of_isInPlace sorted inPlace
    · exact sorted.insert
  · rename_i absent
    exact absurd inside (List.idxOf?_eq_none_iff.mp absent)

theorem InOrder.stays {returning : List κ} (sorted : InOrder order entries) (distinct : entries.Nodup) :
    InOrder order (returning.foldl (Register.restored order) entries) := by
  induction returning generalizing entries with
  | nil => exact sorted
  | cons first rest ih =>
    refine ih ?_ (nodup_restored distinct)
    by_cases inside : first ∈ entries
    · exact .restored distinct (List.Pairwise.filter _ sorted) inside
    · rwa [restored_of_not_mem inside]

/-- Several entries go back to their places, and only one of them is in the register. -/
theorem InOrder.restored_all {returning : List κ} (distinct : entries.Nodup)
    (sorted : InOrder order (entries.filter (· ≠ entry))) (inside : entry ∈ entries)
    (only : ∀ other ∈ returning, other ∈ entries → other = entry) (returns : entry ∈ returning) :
    InOrder order (returning.foldl (Register.restored order) entries) := by
  induction returning with
  | nil => cases returns
  | cons first rest ih =>
    rw [List.foldl_cons]
    by_cases here : first ∈ entries
    · rw [only first List.mem_cons_self here]
      exact (InOrder.restored distinct sorted inside).stays (nodup_restored distinct)
    · rw [restored_of_not_mem here]
      refine ih (fun other later => only other (List.mem_cons_of_mem first later)) ?_
      exact (List.mem_cons.mp returns).resolve_left fun same => here (same ▸ inside)

end Restored

end DoubleEntry.Register
