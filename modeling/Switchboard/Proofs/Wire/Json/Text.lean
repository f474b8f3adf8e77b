import Mathlib.Data.List.Forall2
import Switchboard.Proofs.Wire.Json.Tokens
import Switchboard.Proofs.Wire.MsgPack.Items

/-!
# JSON Text

What is read from the text of a tree. It is not always the tree: JSON has one
kind of whole numbers and no octets, so a number without sign is read as any
other number, and octets are read as an array of numbers. `readBack` is the tree
that is read, and a message has to be recognised in it.

Floating-point numbers are left out. Their text has the fewest digits that tell
them apart, and reading is not exact enough to undo that.

The reader takes the text from the front, so the law is about texts with a rest
behind them. It is also bounded by a count of calls, which starts at twice the
length of the text. `LeadsTo` puts both into one relation between a text and a
tree. An array leads to a tree if its items do, whatever their texts are, so
arrays of nodes and octets are instances of one lemma.

## Main definitions

* `readBack`: The tree that the text of a tree is read as.
* `Node.Keyed`, `Node.hasReal`: Objects with texts for keys; floating-point
  numbers in a tree.
* `Legible`: Trees whose text can be read.
* `LeadsTo`: A text is read as a tree.

## Theorems

* `readItems?_intercalate`, `readEntries?_intercalate`: Lists of parts.
* `leadsTo_chars`: The text of a tree is read as `readBack` of it.
* `read?_print`: So is the whole text.
-/

namespace Switchboard.Wire

namespace Node

mutual

/-- Trees whose objects have texts for keys. -/
def Keyed : Node → Prop
  | .array items => KeyedItems items
  | .object entries => KeyedEntries entries
  | _ => True

/-- Several trees whose objects have texts for keys. -/
def KeyedItems : List Node → Prop
  | [] => True
  | n :: ns => Keyed n ∧ KeyedItems ns

/-- Entries with texts for keys, inside as well. -/
def KeyedEntries : List (Node × Node) → Prop
  | [] => True
  | (key, n) :: rest => (∃ s, key = .text s) ∧ Keyed n ∧ KeyedEntries rest

end

mutual

/-- Whether there is a floating-point number in a tree. -/
def hasReal : Node → Bool
  | .single _ => true
  | .double _ => true
  | .array items => itemsHaveReal items
  | .object entries => entriesHaveReal entries
  | _ => false

/-- Whether there is one in any of several trees. -/
def itemsHaveReal : List Node → Bool
  | [] => false
  | n :: ns => hasReal n || itemsHaveReal ns

/-- Whether there is one in any of several entries. -/
def entriesHaveReal : List (Node × Node) → Bool
  | [] => false
  | (key, n) :: rest => hasReal key || (hasReal n || entriesHaveReal rest)

end

end Node

namespace Json

open Node

mutual

/-- The tree that the text of a tree is read as. -/
def readBack : Node → Node
  | .natural n => .integer n
  | .octets bs => .array (bs.map fun b => .integer b.toNat)
  | .array items => .array (readBackItems items)
  | .object entries => .object (readBackEntries entries)
  | n => n

/-- What several trees are read as. -/
def readBackItems : List Node → List Node
  | [] => []
  | n :: ns => readBack n :: readBackItems ns

/-- What several entries are read as. -/
def readBackEntries : List (Node × Node) → List (Node × Node)
  | [] => []
  | (key, n) :: rest => (readBack key, readBack n) :: readBackEntries rest

end

mutual

/-- Trees whose text can be read: the numbers are whole and have 64 bits, the
    keys are texts, and nothing is malformed. -/
def Legible : Node → Prop
  | .natural n => Wide n
  | .integer n => Wide n
  | .single _ => False
  | .double _ => False
  | .crude _ => False
  | .unusable => False
  | .array items => LegibleItems items
  | .object entries => LegibleEntries entries
  | _ => True

/-- Several legible trees. -/
def LegibleItems : List Node → Prop
  | [] => True
  | n :: ns => Legible n ∧ LegibleItems ns

/-- Entries with texts for keys and legible values. -/
def LegibleEntries : List (Node × Node) → Prop
  | [] => True
  | (key, n) :: rest => (∃ s, key = .text s) ∧ Legible n ∧ LegibleEntries rest

end

mutual

/-- Trees that have bytes of their own are legible if they are without
    floating-point numbers and other keys than texts. -/
theorem Legible.of_regular : ∀ n : Node, n.Regular → n.Words → n.Keyed → n.hasReal = false →
    Legible n
  | .null, _, _, _, _ | .bool _, _, _, _, _ | .text _, _, _, _, _ | .octets _, _, _, _, _ => trivial
  | .natural _, _, hwords, _, _ => wide_natCast hwords
  | .integer n, hregular, _, _, _ => by
      have hsign : n < 0 := hregular.2
      exact ⟨hregular.1, by omega⟩
  | .single _, _, _, _, hreal | .double _, _, _, _, hreal => Bool.noConfusion hreal
  | .crude _, hregular, _, _, _ | .unusable, hregular, _, _, _ => hregular
  | .array items, hregular, hwords, hkeyed, hreal =>
      LegibleItems.of_regular items hregular hwords hkeyed hreal
  | .object entries, hregular, hwords, hkeyed, hreal =>
      LegibleEntries.of_regular entries hregular hwords hkeyed hreal

theorem LegibleItems.of_regular : ∀ ns : List Node, RegularItems ns → WordsInItems ns →
    KeyedItems ns → itemsHaveReal ns = false → LegibleItems ns
  | [], _, _, _, _ => trivial
  | n :: ns, hregular, hwords, hkeyed, hreal => by
      rw [itemsHaveReal, Bool.or_eq_false_iff] at hreal
      exact ⟨.of_regular n hregular.1 hwords.1 hkeyed.1 hreal.1,
        .of_regular ns hregular.2 hwords.2 hkeyed.2 hreal.2⟩

theorem LegibleEntries.of_regular : ∀ entries : List (Node × Node), RegularEntries entries →
    WordsInEntries entries → KeyedEntries entries → entriesHaveReal entries = false →
    LegibleEntries entries
  | [], _, _, _, _ => trivial
  | (key, n) :: rest, hregular, hwords, hkeyed, hreal => by
      rw [entriesHaveReal, Bool.or_eq_false_iff, Bool.or_eq_false_iff] at hreal
      exact ⟨hkeyed.1, .of_regular n hregular.2.1 hwords.2.1 hkeyed.2.1 hreal.2.1,
        .of_regular rest hregular.2.2 hwords.2.2 hkeyed.2.2 hreal.2.2⟩

end

/-! ## Single values -/

/-- A text is read as a tree, whatever text follows that does not go on with a
    number. It begins with something that cannot be missed. -/
structure LeadsTo (text : List Char) (node : Node) : Prop where
  start : ∃ c cs, text = c :: cs ∧ isBlank c = false ∧ c ≠ ']'
  read : ∀ (calls : Nat) (rest : List Char), EndsNumber rest → 2 * text.length ≤ calls →
    readValue? calls (text ++ rest) = some (node, rest)

/-- A text is longer than nothing, so there is a call for it. -/
theorem exists_call {c : Char} {cs : List Char} {calls : Nat}
    (h : 2 * (c :: cs).length ≤ calls) :
    ∃ fewer, calls = fewer + 1 ∧ 2 * cs.length + 1 ≤ fewer := by
  rw [List.length_cons] at h
  exact ⟨calls - 1, by omega, by omega⟩

/-- A word that a single call recognises. -/
theorem leadsTo_word {c : Char} {cs : List Char} {node : Node}
    (hstart : isBlank c = false ∧ c ≠ ']')
    (hread : ∀ calls rest, readValue? (calls + 1) (c :: cs ++ rest) = some (node, rest)) :
    LeadsTo (c :: cs) node where
  start := ⟨c, cs, rfl, hstart⟩
  read calls rest _ hcalls := by
    rcases exists_call hcalls with ⟨fewer, rfl, _⟩
    exact hread fewer rest

theorem leadsTo_quote (s : String) : LeadsTo (quote s) (.text s) where
  start := ⟨'"', _, rfl, rfl, by decide⟩
  read calls rest _ hcalls := by
    rcases exists_call hcalls with ⟨fewer, rfl, _⟩
    have hread := readString?_flatMap_escape s.toList rest
    have hstring : readValue? (fewer + 1) ('"' :: (s.toList.flatMap escape ++ '"' :: rest)) =
        (readString? (s.toList.flatMap escape ++ '"' :: rest)).bind fun found =>
          some (stringNode found.1, found.2) := rfl
    rw [quote, List.cons_append, List.append_assoc, List.singleton_append, hstring, hread,
      Option.bind_some, stringNode_units]

/-- The first character of a whole number is a sign or a digit. -/
theorem printInteger_cons (n : Int) :
    ∃ c cs, printInteger n = c :: cs ∧ (c = '-' ∨ c.isDigit = true) := by
  rcases List.exists_cons_of_ne_nil (Nat.toDigits_ne_nil (n := n.natAbs) (b := 10)) with
    ⟨c, cs, hdigits⟩
  have hc : c.isDigit = true :=
    Nat.isDigit_of_mem_toDigits (by decide) (by decide) (hdigits ▸ List.mem_cons_self)
  unfold printInteger
  rw [hdigits]
  by_cases hn : n < 0
  · exact ⟨'-', c :: cs, by rw [if_pos hn]; rfl, Or.inl rfl⟩
  · exact ⟨c, cs, by rw [if_neg hn]; rfl, Or.inr hc⟩

theorem leadsTo_printInteger {n : Int} (h : Wide n) : LeadsTo (printInteger n) (.integer n) := by
  rcases printInteger_cons n with ⟨c, cs, htext, hc⟩
  -- Nothing else that a value can begin with is a sign or a digit.
  have hother : ∀ other, other ≠ '-' → other.isDigit = false → c ≠ other := by
    rintro other hsign hdigit rfl
    rcases hc with hc | hc
    · exact hsign hc
    · exact Bool.false_ne_true (hdigit.symm.trans hc)
  have hblank : isBlank c = false := by
    simp only [isBlank, Bool.or_eq_false_iff, decide_eq_false_iff_not]
    exact ⟨⟨⟨hother ' ' (by decide) rfl, hother '\n' (by decide) rfl⟩,
      hother '\t' (by decide) rfl⟩, hother '\r' (by decide) rfl⟩
  refine ⟨⟨c, cs, htext, hblank, hother ']' (by decide) rfl⟩, ?_⟩
  intro calls rest hrest hcalls
  rw [htext] at hcalls
  rcases exists_call hcalls with ⟨fewer, rfl, _⟩
  have hskip : skipBlanks (c :: (cs ++ rest)) = c :: (cs ++ rest) :=
    List.dropWhile_cons_of_neg (Bool.not_eq_true _ ▸ hblank)
  have hread := readNumber?_printInteger n hrest
  rw [htext, List.cons_append] at hread
  rw [htext, List.cons_append, readValue?, hskip]
  split
  · next heq => exact absurd (List.cons.inj heq).1 (hother '"' (by decide) rfl)
  · next heq => exact absurd (List.cons.inj heq).1 (hother '[' (by decide) rfl)
  · next heq => exact absurd (List.cons.inj heq).1 (hother '\x7b' (by decide) rfl)
  · next heq => exact absurd (List.cons.inj heq).1 (hother 'n' (by decide) rfl)
  · next heq => exact absurd (List.cons.inj heq).1 (hother 't' (by decide) rfl)
  · next heq => exact absurd (List.cons.inj heq).1 (hother 'f' (by decide) rfl)
  · simp only [hread, Option.bind_eq_bind, Option.bind_some, Option.pure_def, numberNode_digits h]

/-! ## Lists of parts -/

/-- The items of an array are read off the front of their texts, up to the
    bracket. -/
theorem readItems?_intercalate {parts : List (List Char)} {nodes : List Node}
    (h : List.Forall₂ LeadsTo parts nodes) (hne : parts ≠ []) :
    ∀ (calls : Nat) (rest : List Char), 2 * (List.intercalate [','] parts).length + 1 ≤ calls →
      readItems? calls (List.intercalate [','] parts ++ ']' :: rest) = some (nodes, rest) := by
  induction h with
  | nil => exact absurd rfl hne
  | @cons part node parts nodes hpart hparts ih =>
      intro calls rest hcalls
      obtain ⟨fewer, rfl⟩ : ∃ fewer, calls = fewer + 1 := ⟨calls - 1, by omega⟩
      cases hparts with
      | nil =>
          rw [List.intercalate_singleton] at hcalls ⊢
          have hread := hpart.read fewer (']' :: rest)
            (endsNumber_cons rest (by decide)) (by omega)
          rw [readItems?, hread]
          rfl
      | @cons next nextNode parts nodes hnext hparts =>
          rw [List.intercalate_cons_cons] at hcalls ⊢
          rw [List.length_append, List.length_append, List.length_singleton] at hcalls
          have hread := hpart.read fewer
            (',' :: (List.intercalate [','] (next :: parts) ++ ']' :: rest))
            (endsNumber_cons _ (by decide)) (by omega)
          have hothers := ih (List.cons_ne_nil _ _) fewer rest (by omega)
          rw [List.append_assoc, List.append_assoc, List.singleton_append, readItems?, hread]
          change (readItems? fewer (List.intercalate [','] (next :: parts) ++ ']' :: rest)).bind _ =
            _
          rw [hothers]
          rfl

theorem leadsTo_array {parts : List (List Char)} {nodes : List Node}
    (h : List.Forall₂ LeadsTo parts nodes) : LeadsTo (enclose '[' ']' parts) (.array nodes) where
  start := ⟨'[', _, rfl, rfl, by decide⟩
  read calls rest _ hcalls := by
    rcases exists_call hcalls with ⟨fewer, rfl, hfewer⟩
    rw [List.length_append, List.length_singleton] at hfewer
    cases h with
    | nil => rfl
    | @cons part node parts nodes hpart hparts =>
        have hread := readItems?_intercalate (.cons hpart hparts) (List.cons_ne_nil _ _) fewer rest
          (by omega)
        -- The first item does not begin with what would end the array.
        rcases hpart.start with ⟨c, cs, htext, hblank, hclose⟩
        obtain ⟨others, hothers⟩ : ∃ others,
            List.intercalate [','] (part :: parts) ++ ']' :: rest = c :: others := by
          cases parts with
          | nil => exact ⟨_, by rw [List.intercalate_singleton, htext]; rfl⟩
          | cons next parts => exact ⟨_, by rw [List.intercalate_cons_cons, htext]; rfl⟩
        have hskip : skipBlanks (c :: others) = c :: others :=
          List.dropWhile_cons_of_neg (Bool.not_eq_true _ ▸ hblank)
        have hopen : readValue? (fewer + 1) ('[' :: c :: others) =
            (readItems? fewer (c :: others)).bind fun found => some (.array found.1, found.2) := by
          rw [readValue?, show skipBlanks ('[' :: c :: others) = '[' :: c :: others from rfl]
          simp only [hskip]
          split
          · next heq => exact absurd (List.cons.inj heq).1 hclose
          · rfl
        rw [enclose, List.cons_append, List.append_assoc, List.singleton_append, hothers, hopen,
          ← hothers, hread, Option.bind_some]

/-- A text is read as an entry of an object. -/
def EntryLeadsTo (part : List Char) (entry : Node × Node) : Prop :=
  ∃ key text, part = quote key ++ ':' :: text ∧ entry.1 = .text key ∧ LeadsTo text entry.2

/-- The entry that a text begins with is followed by a comma and more entries
    or by the brace. -/
theorem readEntries?_part {part : List Char} {entry : Node × Node} (h : EntryLeadsTo part entry)
    {calls : Nat} {rest : List Char} (hrest : EndsNumber rest) (hcalls : 2 * part.length ≤ calls) :
    readEntries? (calls + 1) (part ++ rest) =
      match skipBlanks rest with
      | ',' :: rest => (readEntries? calls rest).bind fun found =>
          some (entry :: found.1, found.2)
      | '\x7d' :: rest => some ([entry], rest)
      | _ => none := by
  rcases h with ⟨key, text, rfl, hkey, htext⟩
  rw [List.length_append, List.length_cons] at hcalls
  have hread := htext.read calls rest hrest (by omega)
  have hstring := readString?_flatMap_escape key.toList (':' :: (text ++ rest))
  rw [quote, List.cons_append, List.cons_append, List.append_assoc, List.append_assoc,
    List.singleton_append, List.cons_append, readEntries?,
    show ∀ cs, skipBlanks ('"' :: cs) = '"' :: cs from fun _ => rfl]
  simp only [hstring, Option.bind_eq_bind, Option.bind_some,
    show ∀ cs, skipBlanks (':' :: cs) = ':' :: cs from fun _ => rfl, hread, keyNode_units, ← hkey]
  rfl

theorem readEntries?_intercalate {parts : List (List Char)} {entries : List (Node × Node)}
    (h : List.Forall₂ EntryLeadsTo parts entries) (hne : parts ≠ []) :
    ∀ (calls : Nat) (rest : List Char), 2 * (List.intercalate [','] parts).length + 1 ≤ calls →
      readEntries? calls (List.intercalate [','] parts ++ '\x7d' :: rest) =
        some (entries, rest) := by
  induction h with
  | nil => exact absurd rfl hne
  | @cons part entry parts entries hpart hparts ih =>
      intro calls rest hcalls
      obtain ⟨fewer, rfl⟩ : ∃ fewer, calls = fewer + 1 := ⟨calls - 1, by omega⟩
      cases hparts with
      | nil =>
          rw [List.intercalate_singleton] at hcalls ⊢
          rw [readEntries?_part hpart (endsNumber_cons rest (by decide)) (by omega)]
          rfl
      | @cons next nextEntry parts entries hnext hparts =>
          rw [List.intercalate_cons_cons] at hcalls ⊢
          rw [List.length_append, List.length_append, List.length_singleton] at hcalls
          have hothers := ih (List.cons_ne_nil _ _) fewer rest (by omega)
          rw [List.append_assoc, List.append_assoc, List.singleton_append,
            readEntries?_part hpart (endsNumber_cons _ (by decide)) (by omega)]
          change (readEntries? fewer
            (List.intercalate [','] (next :: parts) ++ '\x7d' :: rest)).bind _ = _
          rw [hothers]
          rfl

theorem leadsTo_object {parts : List (List Char)} {entries : List (Node × Node)}
    (h : List.Forall₂ EntryLeadsTo parts entries) :
    LeadsTo (enclose '\x7b' '\x7d' parts) (.object entries) where
  start := ⟨'\x7b', _, rfl, rfl, by decide⟩
  read calls rest _ hcalls := by
    rcases exists_call hcalls with ⟨fewer, rfl, hfewer⟩
    rw [List.length_append, List.length_singleton] at hfewer
    cases h with
    | nil => rfl
    | @cons part entry parts entries hpart hparts =>
        have hread := readEntries?_intercalate (.cons hpart hparts) (List.cons_ne_nil _ _) fewer
          rest (by omega)
        obtain ⟨others, hothers⟩ : ∃ others,
            List.intercalate [','] (part :: parts) ++ '\x7d' :: rest = '"' :: others := by
          rcases hpart with ⟨key, text, rfl, _, _⟩
          cases parts with
          | nil => exact ⟨_, by rw [List.intercalate_singleton]; rfl⟩
          | cons next parts => exact ⟨_, by rw [List.intercalate_cons_cons]; rfl⟩
        have hopen : readValue? (fewer + 1) ('\x7b' :: '"' :: others) =
            (readEntries? fewer ('"' :: others)).bind fun found =>
              some (.object found.1, found.2) := rfl
        rw [enclose, List.cons_append, List.append_assoc, List.singleton_append, hothers, hopen,
          ← hothers, hread, Option.bind_some]

/-! ## Whole trees -/

theorem leadsTo_octets (bs : List UInt8) :
    LeadsTo (printOctets bs) (.array (bs.map fun b => .integer b.toNat)) := by
  refine leadsTo_array ?_
  rw [List.forall₂_map_left_iff, List.forall₂_map_right_iff, List.forall₂_same]
  intro b _
  exact leadsTo_printInteger (wide_natCast (Nat.lt_trans b.toNat_lt (by decide)))

mutual

/-- The text of a tree is read as `readBack` of it. -/
theorem leadsTo_chars : ∀ n : Node, Legible n → LeadsTo (chars n) (readBack n)
  | .null, _ | .bool true, _ | .bool false, _ => leadsTo_word (by decide) fun _ _ => rfl
  | .natural _, h | .integer _, h => leadsTo_printInteger h
  | .text s, _ => leadsTo_quote s
  | .octets bs, _ => leadsTo_octets bs
  | .array items, h => leadsTo_array (leadsTo_charsOfItems items h)
  | .object entries, h => leadsTo_object (leadsTo_charsOfEntries entries h)

theorem leadsTo_charsOfItems : ∀ ns : List Node, LegibleItems ns →
    List.Forall₂ LeadsTo (charsOfItems ns) (readBackItems ns)
  | [], _ => .nil
  | n :: ns, h => .cons (leadsTo_chars n h.1) (leadsTo_charsOfItems ns h.2)

theorem leadsTo_charsOfEntries : ∀ entries : List (Node × Node), LegibleEntries entries →
    List.Forall₂ EntryLeadsTo (charsOfEntries entries) (readBackEntries entries)
  | [], _ => .nil
  | (key, n) :: rest, h => by
      rcases h.1 with ⟨s, rfl⟩
      exact .cons ⟨s, chars n, rfl, rfl, leadsTo_chars n h.2.1⟩
        (leadsTo_charsOfEntries rest h.2.2)

end

/-- The text of a tree is read as one tree with nothing after it. -/
theorem read?_print {n : Node} (h : Legible n) : read? (print n) = some (readBack n) := by
  have hread := (leadsTo_chars n h).read (2 * (chars n).length + 2) [] endsNumber_nil
    (Nat.le_add_right _ 2)
  rw [List.append_nil] at hread
  rw [read?, print, String.toList_ofList]
  simp only [hread, Option.bind_eq_bind, Option.bind_some]
  rfl

end Json

end Switchboard.Wire
