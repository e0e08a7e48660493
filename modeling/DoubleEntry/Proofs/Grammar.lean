import DoubleEntry.Fault
import DoubleEntry.Proofs.Spellings

/-! # The texts that are identifiers

The texts that are read as identifiers are described by their digits, and not by how they are read: 32 of
them, bare or in one of three arrangements. The number that the digits denote is the identifier, however they
are arranged and in whatever case they are, and it is shown with the same digits.
-/

namespace DoubleEntry

namespace Ident

open Text

/-- The hexadecimal digits in the order of their values. -/
def alphabet : List Char := ['0', '1', '2', '3', '4', '5', '6', '7', '8', '9', 'a', 'b', 'c', 'd', 'e', 'f']

/-- The number that digits denote, the first of them the most significant. Case does not matter. -/
def numberOf (digits : List Char) : Nat :=
  digits.foldl (fun number c => 16 * number + alphabet.idxOf c.toLower) 0

/-- Hexadecimal digits in either case, as many as an identifier has. -/
structure IsDigits (digits : List Char) : Prop where
  length : digits.length = 32
  each : ∀ c ∈ digits, c.toLower ∈ alphabet

/-- The texts that spell digits. The words that may stand before them are in any case. -/
inductive Spells (digits : List Char) : List Char → Prop
  | bare : Spells digits digits
  | grouped : Spells digits (group digits)
  | braced : Spells digits ('\x7b' :: group digits ++ ['\x7d'])
  | named {words : List Char} (scheme : words.map Char.toLower = "urn:uuid:".toList) :
      Spells digits (words ++ group digits)

variable {cs digits : List Char} {ident : Ident}

/-! ## Digits -/

theorem hexValue?_eq (c : Char) :
    hexValue? c = if c.toLower ∈ alphabet then some (alphabet.idxOf c.toLower) else none := by
  have low : ∀ n < 128, hexValue? (Char.ofNat n) = if (Char.ofNat n).toLower ∈ alphabet then
      some (alphabet.idxOf (Char.ofNat n).toLower) else none := by decide +kernel
  by_cases ascii : c.toNat < 128
  · simpa using low c.toNat ascii
  · have beyond : 128 ≤ c.val.toNat := Nat.not_lt.mp ascii
    have kept : c.toLower = c := by
      rw [Char.toLower, dif_neg]
      rintro ⟨-, last⟩
      have last : c.val.toNat ≤ 90 := UInt32.le_iff_toNat_le.mp last
      omega
    have outside : c ∉ alphabet := by
      have ascii : ∀ digit ∈ alphabet, digit.toNat < 128 := by simp [alphabet]
      exact fun inside => absurd (ascii c inside) (Nat.not_lt.mpr beyond)
    rw [kept, if_neg outside, hexValue?]
    simp only [Char.toNat]
    rw [if_neg (by omega), if_neg (by omega), if_neg (by omega)]

theorem numberOf_append_singleton (c : Char) :
    numberOf (digits ++ [c]) = 16 * numberOf digits + alphabet.idxOf c.toLower := by
  rw [numberOf, List.foldl_append]
  rfl

theorem readHex?_eq_some_iff {number : Nat} : readHex? digits = some number ↔
    (∀ c ∈ digits, c.toLower ∈ alphabet) ∧ numberOf digits = number := by
  induction digits using List.reverseRecOn generalizing number with
  | nil => simp [readHex?, numberOf]
  | append_singleton front c ih =>
    have read : readHex? (front ++ [c]) =
        (readHex? front).bind fun value => (hexValue? c).map (value * 16 + ·) := by
      rw [readHex?, List.foldlM_append]
      exact bind_congr fun value => by simp [List.foldlM_cons]
    rw [read, hexValue?_eq, Option.bind_eq_some_iff, numberOf_append_singleton]
    simp only [ih, List.forall_mem_append, List.forall_mem_singleton]
    constructor
    · rintro ⟨value, ⟨each, rfl⟩, last⟩
      split at last
      · rename_i digit
        exact ⟨⟨each, digit⟩, by rw [← Option.some.inj last, Nat.mul_comm]⟩
      · cases last
    · rintro ⟨⟨each, digit⟩, rfl⟩
      refine ⟨_, ⟨each, rfl⟩, ?_⟩
      rw [if_pos digit, Option.map_some, Nat.mul_comm]

theorem idxOf_lt_sixteen {c : Char} (digit : c.toLower ∈ alphabet) : alphabet.idxOf c.toLower < 16 :=
  List.idxOf_lt_length_of_mem digit

theorem numberOf_lt (each : ∀ c ∈ digits, c.toLower ∈ alphabet) :
    numberOf digits < 16 ^ digits.length := by
  induction digits using List.reverseRecOn with
  | nil => decide
  | append_singleton front c ih =>
    rw [List.forall_mem_append, List.forall_mem_singleton] at each
    have last := idxOf_lt_sixteen each.2
    have before := ih each.1
    rw [numberOf_append_singleton, List.length_append, List.length_singleton, Nat.pow_succ]
    omega

/-- A number is shown with the digits that denote it, in lower case. -/
theorem hexDigits_numberOf (each : ∀ c ∈ digits, c.toLower ∈ alphabet) :
    hexDigits digits.length (numberOf digits) = digits.map Char.toLower := by
  have shown : ∀ digit ∈ alphabet, hexChar (alphabet.idxOf digit) = digit := by simp [alphabet, hexChar]
  induction digits using List.reverseRecOn with
  | nil => rfl
  | append_singleton front c ih =>
    rw [List.forall_mem_append, List.forall_mem_singleton] at each
    have last := idxOf_lt_sixteen each.2
    rw [List.length_append, List.length_singleton, hexDigits, numberOf_append_singleton,
      Nat.mul_add_div (by decide), Nat.div_eq_of_lt last, Nat.add_zero, ih each.1, Nat.mul_add_mod,
      Nat.mod_eq_of_lt last, shown _ each.2, List.map_append, List.map_singleton]

theorem toNat_ofNat_numberOf (isDigits : IsDigits digits) :
    (ofNat (numberOf digits)).toNat = numberOf digits := by
  have small : numberOf digits < 2 ^ 128 :=
    calc numberOf digits < 16 ^ digits.length := numberOf_lt isDigits.each
      _ = 2 ^ 128 := by rw [isDigits.length]; norm_num
  rw [toNat, ofNat, BitVec.toNat_ofNat, Nat.mod_eq_of_lt small]

theorem text_ofNat_numberOf (isDigits : IsDigits digits) :
    (ofNat (numberOf digits)).text = String.ofList (group (digits.map Char.toLower)) := by
  have shown := hexDigits_numberOf isDigits.each
  rw [isDigits.length] at shown
  rw [text, chars, toNat_ofNat_numberOf isDigits, shown]

/-! ## Arrangements -/

theorem ofDigits?_eq_some_iff :
    ofDigits? cs = some ident ↔ IsDigits cs ∧ ofNat (numberOf cs) = ident := by
  rw [ofDigits?]
  constructor
  · intro read
    split at read
    · rename_i full
      obtain ⟨number, denotes, rfl⟩ := Option.map_eq_some_iff.mp read
      obtain ⟨each, rfl⟩ := readHex?_eq_some_iff.mp denotes
      exact ⟨⟨full, each⟩, rfl⟩
    · cases read
  · rintro ⟨isDigits, rfl⟩
    rw [if_pos isDigits.length, readHex?_eq_some_iff.mpr ⟨isDigits.each, rfl⟩, Option.map_some]

theorem eq_take_append_drop {c : Char} {index : Nat} (here : cs[index]? = some c) :
    cs = cs.take index ++ c :: cs.drop (index + 1) := by
  obtain ⟨short, isHere⟩ := List.getElem?_eq_some_iff.mp here
  rw [← isHere, List.getElem_cons_drop, List.take_append_drop]

/-- Four hyphens at their places, among 36 characters, group the others. -/
theorem eq_group {a b c d e : List Char}
    (shape : cs = a ++ '-' :: (b ++ '-' :: (c ++ '-' :: (d ++ '-' :: e))))
    (lengths : a.length = 8 ∧ b.length = 4 ∧ c.length = 4 ∧ d.length = 4) :
    cs = group (a ++ b ++ c ++ d ++ e) := by
  obtain ⟨eight, four, four', four''⟩ := lengths
  simp [shape, group, List.drop_append, List.drop_of_length_le, eight, four, four', four'']

theorem ofGrouped?_eq_some_iff : ofGrouped? cs = some ident ↔
    ∃ digits, IsDigits digits ∧ cs = group digits ∧ ofNat (numberOf digits) = ident := by
  constructor
  · intro read
    unfold ofGrouped? at read
    dsimp only at read
    split at read
    · rename_i marks
      obtain ⟨isDigits, denotes⟩ := ofDigits?_eq_some_iff.mp read
      have mark (i : Nat) (listed : i ∈ [8, 13, 18, 23]) : cs[i]? = some '-' :=
        eq_of_beq (List.all_eq_true.mp marks i listed)
      have marked (start : Nat) (listed : start + 4 ∈ [8, 13, 18, 23]) :
          cs.drop start = (cs.drop start).take 4 ++ '-' :: cs.drop (start + 5) := by
        rw [← List.drop_drop]
        exact eq_take_append_drop (by rw [List.getElem?_drop]; exact mark _ listed)
      have long : 24 ≤ cs.length := (List.getElem?_eq_some_iff.mp (mark 23 (by decide))).1
      refine ⟨_, isDigits, eq_group ?_ (by simp; omega), denotes⟩
      rw [← marked 19 (by decide), ← marked 14 (by decide),
        ← marked 9 (by decide)]
      exact eq_take_append_drop (mark 8 (by decide))
    · cases read
  · rintro ⟨digits, isDigits, rfl, denotes⟩
    rw [ofGrouped?_group isDigits.length]
    exact ofDigits?_eq_some_iff.mpr ⟨isDigits, denotes⟩

theorem unwrap?_braced (body : List Char) : unwrap? ('\x7b' :: body ++ ['\x7d']) = some ⟨body, 1⟩ := by
  simp [unwrap?]

theorem unwrap?_named {words : List Char} (scheme : words.map Char.toLower = "urn:uuid:".toList)
    (body : List Char) : unwrap? (words ++ body) = some ⟨body, 9⟩ := by
  have length : words.length = 9 := by simpa using congrArg List.length scheme
  unfold unwrap?
  split
  · rename_i rest starts
    obtain ⟨first, more, rfl⟩ := List.exists_cons_of_length_eq_add_one length
    obtain ⟨rfl, -⟩ := List.cons.inj starts
    exact absurd (List.cons.inj scheme).1 (by decide)
  · rw [List.take_left' length, List.drop_left' length, if_pos scheme]

theorem unwrap?_shape {inner : Unwrapped} (wrapped : unwrap? cs = some inner) :
    cs = '\x7b' :: inner.body ++ ['\x7d'] ∨
      ∃ words, words.map Char.toLower = "urn:uuid:".toList ∧ cs = words ++ inner.body := by
  unfold unwrap? at wrapped
  split at wrapped
  · rename_i rest
    split at wrapped
    · rename_i closes
      obtain rfl := Option.some.inj wrapped
      obtain ⟨front, rfl⟩ := List.getLast?_eq_some_iff.mp closes
      exact .inl (by simp)
    · cases wrapped
  · split at wrapped
    · rename_i scheme
      obtain rfl := Option.some.inj wrapped
      exact .inr ⟨_, scheme, (List.take_append_drop 9 cs).symm⟩
    · cases wrapped

/-- A text that begins with one of the digits is in no wrapping. -/
theorem unwrap?_digit {c : Char} (digit : c.toLower ∈ alphabet) (rest : List Char) :
    unwrap? (c :: rest) = none := by
  cases wrapped : unwrap? (c :: rest) with
  | none => rfl
  | some inner =>
    have noDigit : '\x7b'.toLower ∉ alphabet ∧ 'u' ∉ alphabet := by decide
    rcases unwrap?_shape wrapped with shape | ⟨words, scheme, shape⟩
    · exact absurd ((List.cons.inj shape).1 ▸ digit) noDigit.1
    · cases words with
      | nil => cases scheme
      | cons first more =>
        rw [(List.cons.inj shape).1, (List.cons.inj scheme).1] at digit
        exact absurd digit noDigit.2

/-- The texts that are read are those that spell digits, and the digits denote what is read. -/
theorem ofChars?_eq_some_iff : ofChars? cs = some ident ↔
    ∃ digits, IsDigits digits ∧ Spells digits cs ∧ ofNat (numberOf digits) = ident := by
  constructor
  · intro read
    unfold ofChars? at read
    split at read
    · rename_i inner wrapped
      obtain ⟨digits, isDigits, isGroup, denotes⟩ := ofGrouped?_eq_some_iff.mp read
      refine ⟨digits, isDigits, ?_, denotes⟩
      rcases unwrap?_shape wrapped with rfl | ⟨words, scheme, rfl⟩
      · exact isGroup ▸ .braced
      · exact isGroup ▸ .named scheme
    · rcases Option.or_eq_some_iff.mp read with bare | ⟨-, grouped⟩
      · obtain ⟨isDigits, denotes⟩ := ofDigits?_eq_some_iff.mp bare
        exact ⟨cs, isDigits, .bare, denotes⟩
      · obtain ⟨digits, isDigits, rfl, denotes⟩ := ofGrouped?_eq_some_iff.mp grouped
        exact ⟨digits, isDigits, .grouped, denotes⟩
  · rintro ⟨digits, isDigits, spells, denotes⟩
    have bare : ofDigits? digits = some ident := ofDigits?_eq_some_iff.mpr ⟨isDigits, denotes⟩
    have grouped : ofGrouped? (group digits) = some ident := (ofGrouped?_group isDigits.length).trans bare
    obtain ⟨first, rest, rfl⟩ := List.exists_cons_of_length_eq_add_one isDigits.length
    have digit : first.toLower ∈ alphabet := isDigits.each first List.mem_cons_self
    cases spells with
    | bare => rw [ofChars?, unwrap?_digit digit, bare, Option.some_or]
    | grouped =>
      have notBare : ofDigits? (group (first :: rest)) = none := by
        rw [ofDigits?, if_neg]
        have full := isDigits.length
        simp [group] at full ⊢
        omega
      have starts : ∃ tail, group (first :: rest) = first :: tail := ⟨_, rfl⟩
      obtain ⟨tail, isGroup⟩ := starts
      rw [ofChars?, isGroup, unwrap?_digit digit, ← isGroup]
      simp only [notBare, Option.none_or, grouped]
    | braced => simp only [ofChars?, unwrap?_braced, grouped]
    | named scheme => simp only [ofChars?, unwrap?_named scheme, grouped]

end Ident

/-! ## Identifiers of entities -/

namespace EntityId

open Ident

/-- For each kind of entity: the written form of an identifier is read as the identifier; any text that
spells 32 digits is read as the number that they denote, which is shown as the same digits in lower case and
grouped; and any other text is refused by a fault that names the kind. -/
theorem reads_spellings (kind : EntityKind) :
    (∀ id : EntityId kind, EntityId.ofText id.text = .ok id) ∧
    (∀ digits (text : String), IsDigits digits → Spells digits text.toList →
      ∃ id : EntityId kind, EntityId.ofText text = .ok id ∧ id.ident.toNat = numberOf digits ∧
        id.text = String.ofList (group (digits.map Char.toLower))) ∧
    ∀ text : String, (¬ ∃ digits, IsDigits digits ∧ Spells digits text.toList) →
      ∃ reason, (EntityId.ofText text : Except Fault (EntityId kind)) =
          .error (.badIdent (.unreadable kind reason)) ∧
        (Fault.badIdent (.unreadable kind reason)).message =
          "invalid identifier: " ++ (kind.typeName ++ ": " ++ reason.message) := by
  have named (reason : IdentFault) : (Fault.badIdent (.unreadable kind reason)).message =
      "invalid identifier: " ++ (kind.typeName ++ ": " ++ reason.message) := rfl
  refine ⟨fun id => ?_, fun digits text isDigits spells => ?_, fun text noDigits => ?_⟩
  · rw [EntityId.ofText, Ident.ofText, EntityId.text, Ident.text, String.toList_ofList, ofChars?_chars]
  · have read := ofChars?_eq_some_iff.mpr ⟨digits, isDigits, spells, rfl⟩
    refine ⟨⟨.ofNat (numberOf digits)⟩, ?_, toNat_ofNat_numberOf isDigits, text_ofNat_numberOf isDigits⟩
    rw [EntityId.ofText, Ident.ofText, read]
  · refine ⟨diagnose text.toList, ?_, named _⟩
    cases read : ofChars? text.toList with
    | none => rw [EntityId.ofText, Ident.ofText, read]
    | some ident =>
      obtain ⟨digits, isDigits, spells, -⟩ := ofChars?_eq_some_iff.mp read
      exact absurd ⟨digits, isDigits, spells⟩ noDigits

end EntityId

end DoubleEntry
