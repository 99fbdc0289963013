import Chip8.Instruction.Decode
import Chip8.Machine.Dump
import Chip8.Proofs.Text.Hex
import Chip8.Proofs.Text.Parts

namespace Chip8

namespace Instruction

theorem newline_notMem_mnemonic (i : Instruction) : '\n' ∉ i.mnemonic.toList := by
  have hint : ∀ width n, '\n' ∉ (Text.Hex.ofInt width n).toList :=
    Text.Hex.notMem_ofInt (by decide) (by decide)
  cases i <;> simp [mnemonic, registerName, byteText, addressText, hint]

end Instruction

namespace Machine

open Text

def fieldText (width : Nat) (n : Int) : String :=
  "0x" ++ Hex.ofInt width n

def fieldWords (m : Machine) (pc opcode : Int) : List String :=
  ["V:", "0x" ++ m.registerText, "I:", fieldText 4 m.i, "DT:", fieldText 2 m.delay,
    "DS:", fieldText 2 m.sound, "PC:", fieldText 3 pc, "OP:", fieldText 4 opcode, "IN:"]

def stackWords (items : List Int) : List String :=
  if items = [] then ["(Empty)"] else items.map (fieldText 3)

def isAddressWord (word : String) : Bool :=
  "0x".toList.isPrefixOf word.toList

def pointerShown? (dump : String) : Option String :=
  match (lines dump).map words with
  | [_, ["SP:", numeral], _] => some numeral
  | _ => none

def addressesShown (dump : String) : List String :=
  match (lines dump).map words with
  | [_, _, shown] => shown.filter isAddressWord
  | _ => []

variable {m n : Machine} {c : Char} {text text' : String} {pc pc' opcode opcode' : Int}
  {i i' : Instruction}

theorem notMem_fieldText (hc : c = ' ' ∨ c = '\n') (width : Nat) (n : Int) :
    c ∉ (fieldText width n).toList := by
  have h : c ∉ (Hex.ofInt width n).toList := by
    refine Hex.notMem_ofInt ?_ ?_ width n <;> obtain rfl | rfl := hc <;> decide
  obtain rfl | rfl := hc <;> simp [fieldText, h]

theorem fieldText_inj {width : Nat} {a b : Int} : fieldText width a = fieldText width b ↔ a = b := by
  rw [fieldText, fieldText, String.append_right_inj, Hex.ofInt_inj]

theorem registerText_inj : m.registerText = n.registerText ↔ m.v = n.v := by
  rw [registerText, registerText, Hex.ofBytes_inj, List.reverse_inj, Vector.toList_inj]

theorem notMem_fieldWords (hc : c = ' ' ∨ c = '\n') (m : Machine) (pc opcode : Int) :
    ∀ word ∈ m.fieldWords pc opcode, c ∉ word.toList := by
  have hregisters : c ∉ m.registerText.toList := by
    refine Hex.notMem_ofBytes ?_ ?_ _ <;> obtain rfl | rfl := hc <;> decide
  have hfield := notMem_fieldText hc
  obtain rfl | rfl := hc <;> simp [fieldWords, hfield, hregisters]

theorem dumpLine_eq (m : Machine) (pc opcode : Int) (text : String) :
    m.dumpLine pc opcode text = (String.singleton ' ').intercalate (m.fieldWords pc opcode ++ [text]) := by
  unfold dumpLine fieldWords fieldText
  apply String.toList_inj.mp
  simp only [List.cons_append, List.nil_append, String.intercalate_cons_cons, String.intercalate_singleton,
    String.toList_append, String.toList_singleton, String.reduceToList, List.append_assoc]

theorem words_dumpLine (m : Machine) (pc opcode : Int) (text : String) :
    words (m.dumpLine pc opcode text) = m.fieldWords pc opcode ++ words text := by
  rw [dumpLine_eq, words, parts_intercalate_concat (notMem_fieldWords (.inl rfl) m pc opcode)]
  rfl

theorem stackText_eq (m : Machine) :
    m.stackText = (String.singleton ' ').intercalate (stackWords m.stack.items) := by
  rw [stackText, stackWords]
  split
  · next h => rw [if_pos h, String.intercalate_singleton]
  · next h => rw [if_neg h]; rfl

theorem notMem_stackWords (hc : c = ' ' ∨ c = '\n') (items : List Int) :
    ∀ word ∈ stackWords items, c ∉ word.toList := by
  intro word hm
  rw [stackWords] at hm
  split at hm
  · rw [List.mem_singleton.mp hm]
    obtain rfl | rfl := hc <;> decide
  · obtain ⟨a, -, rfl⟩ := List.mem_map.mp hm
    exact notMem_fieldText hc 3 a

theorem words_stackLine (m : Machine) :
    words ("Stack: " ++ m.stackText) = "Stack:" :: stackWords m.stack.items := by
  have hne : stackWords m.stack.items ≠ [] := by
    rw [stackWords]
    split <;> simp [*]
  have hblank : ∀ word ∈ "Stack:" :: stackWords m.stack.items, ' ' ∉ word.toList :=
    List.forall_mem_cons.mpr ⟨by decide, notMem_stackWords (.inl rfl) _⟩
  have hline : "Stack: " ++ m.stackText =
      (String.singleton ' ').intercalate ("Stack:" :: stackWords m.stack.items) := by
    rw [String.intercalate_cons_of_ne_nil hne, ← stackText_eq]
    rfl
  rw [hline, words, parts_intercalate (List.cons_ne_nil _ _) hblank]

/-- The lines of a dump with an instruction that is written in one line. -/
theorem lines_verboseDump (m : Machine) (pc opcode : Int) (ht : '\n' ∉ text.toList) :
    lines (m.verboseDump pc opcode text) =
      [m.dumpLine pc opcode text, "SP: " ++ toString m.stack.pointer, "Stack: " ++ m.stackText] := by
  have hdump : m.verboseDump pc opcode text = (String.singleton '\n').intercalate
      [m.dumpLine pc opcode text, "SP: " ++ toString m.stack.pointer, "Stack: " ++ m.stackText] := by
    unfold verboseDump
    apply String.toList_inj.mp
    simp only [String.intercalate_cons_cons, String.intercalate_singleton, String.toList_append,
      String.toList_singleton, String.reduceToList, List.append_assoc, List.cons_append, List.nil_append]
  have hline : '\n' ∉ (m.dumpLine pc opcode text).toList := by
    have hfields := notMem_fieldWords (.inr rfl) m pc opcode
    rw [dumpLine_eq]
    exact notMem_intercalate (by decide)
      (List.forall_mem_append.mpr ⟨hfields, List.forall_mem_singleton.mpr ht⟩)
  have hpointer : '\n' ∉ ("SP: " ++ toString m.stack.pointer).toList := by
    rw [String.toList_append, List.mem_append, not_or]
    exact ⟨by decide, notMem_toString (by decide) _⟩
  have hstack : '\n' ∉ ("Stack: " ++ m.stackText).toList := by
    rw [String.toList_append, List.mem_append, not_or, stackText_eq]
    exact ⟨by decide, notMem_intercalate (by decide) (notMem_stackWords (.inr rfl) _)⟩
  rw [hdump, lines, parts_intercalate (List.cons_ne_nil _ _)]
  exact List.forall_mem_cons.mpr
    ⟨hline, List.forall_mem_cons.mpr ⟨hpointer, List.forall_mem_singleton.mpr hstack⟩⟩

theorem words_pointerLine (m : Machine) :
    words ("SP: " ++ toString m.stack.pointer) = ["SP:", toString m.stack.pointer] := by
  have hline : "SP: " ++ toString m.stack.pointer =
      (String.singleton ' ').intercalate (["SP:"] ++ [toString m.stack.pointer]) := by
    rw [List.singleton_append, String.intercalate_cons_cons, String.intercalate_singleton]
    rfl
  have hlabel : ∀ word ∈ ["SP:"], ' ' ∉ word.toList := List.forall_mem_singleton.mpr (by decide)
  rw [hline, words, parts_intercalate_concat hlabel, parts_of_notMem (notMem_toString (by decide) _)]
  rfl

theorem map_words_verboseDump (m : Machine) (pc opcode : Int) (ht : '\n' ∉ text.toList) :
    (lines (m.verboseDump pc opcode text)).map words =
      [m.fieldWords pc opcode ++ words text, ["SP:", toString m.stack.pointer],
        "Stack:" :: stackWords m.stack.items] := by
  rw [lines_verboseDump m pc opcode ht, List.map_cons, List.map_cons, List.map_singleton, words_dumpLine,
    words_pointerLine, words_stackLine]

theorem isAddressWord_fieldText (width : Nat) (n : Int) : isAddressWord (fieldText width n) = true := by
  simp [isAddressWord, fieldText]

theorem filter_stackWords (items : List Int) :
    (stackWords items).filter isAddressWord = items.map (fieldText 3) := by
  rw [stackWords]
  split
  · next h => rw [h]; decide
  · refine List.filter_eq_self.mpr ?_
    intro word hm
    obtain ⟨a, -, rfl⟩ := List.mem_map.mp hm
    exact isAddressWord_fieldText 3 a

theorem addressesShown_verboseDump (m : Machine) (pc opcode : Int) (ht : '\n' ∉ text.toList) :
    addressesShown (m.verboseDump pc opcode text) = m.stack.items.map (fieldText 3) := by
  rw [addressesShown, map_words_verboseDump m pc opcode ht]
  exact (List.filter_cons_of_neg (by decide)).trans (filter_stackWords _)

theorem pointerShown?_verboseDump (m : Machine) (pc opcode : Int) (ht : '\n' ∉ text.toList) :
    pointerShown? (m.verboseDump pc opcode text) = some (toString m.stack.pointer) := by
  rw [pointerShown?, map_words_verboseDump m pc opcode ht]
  rfl

theorem stackWords_inj {items items' : List Int} :
    stackWords items = stackWords items' ↔ items = items' := by
  refine ⟨fun h => ?_, congrArg _⟩
  have hmap := congrArg (List.filter isAddressWord) h
  rw [filter_stackWords, filter_stackWords] at hmap
  exact List.map_injective_iff.mpr (fun _ _ => fieldText_inj.mp) hmap

theorem fieldWords_inj : m.fieldWords pc opcode = n.fieldWords pc' opcode' ↔
    m.v = n.v ∧ m.i = n.i ∧ m.delay = n.delay ∧ m.sound = n.sound ∧ pc = pc' ∧ opcode = opcode' := by
  simp only [fieldWords, List.cons.injEq, String.append_right_inj, registerText_inj, fieldText_inj, and_true,
    true_and]

/-- Dumps of instructions that are written in one line. -/
theorem verboseDump_inj (ht : '\n' ∉ text.toList) (ht' : '\n' ∉ text'.toList)
    (h : m.verboseDump pc opcode text = n.verboseDump pc' opcode' text') :
    m.fieldWords pc opcode = n.fieldWords pc' opcode' ∧ m.stack.items = n.stack.items := by
  have hwords := congrArg (fun dump => (lines dump).map words) h
  simp only [map_words_verboseDump _ _ _ ht, map_words_verboseDump _ _ _ ht', List.cons.injEq, and_true,
    true_and, stackWords_inj] at hwords
  exact ⟨(List.append_inj hwords.1 rfl).1, hwords.2.2⟩

/-- Two dumps of machines at instructions are the same exactly if all that they show is the same: the
registers, the index, the timers, the stack, the address and the word, of any width each. The number of
addresses is that of the line above them. -/
theorem verboseDump_loses_nothing (m n : Machine) (pc pc' : Int)
    (hi : Instruction.decode opcode = .ok i) (hi' : Instruction.decode opcode' = .ok i') :
    (m.verboseDump pc opcode i.mnemonic = n.verboseDump pc' opcode' i'.mnemonic ↔
      m.v = n.v ∧ m.i = n.i ∧ m.delay = n.delay ∧ m.sound = n.sound ∧ m.stack = n.stack ∧
        pc = pc' ∧ opcode = opcode') ∧
    pointerShown? (m.verboseDump pc opcode i.mnemonic) =
      some (toString (addressesShown (m.verboseDump pc opcode i.mnemonic)).length) := by
  refine ⟨⟨fun h => ?_, ?_⟩, ?_⟩
  · obtain ⟨hfields, hitems⟩ := verboseDump_inj i.newline_notMem_mnemonic i'.newline_notMem_mnemonic h
    obtain ⟨hv, hindex, hdelay, hsound, hpc, hopcode⟩ := fieldWords_inj.mp hfields
    have hstack : m.stack = n.stack := congrArg CallStack.mk (List.reverse_injective hitems)
    exact ⟨hv, hindex, hdelay, hsound, hstack, hpc, hopcode⟩
  · rintro ⟨hv, hindex, hdelay, hsound, hstack, rfl, rfl⟩
    cases hi.symm.trans hi'
    unfold verboseDump dumpLine registerText stackText
    rw [hv, hindex, hdelay, hsound, hstack]
  · rw [pointerShown?_verboseDump m pc opcode i.newline_notMem_mnemonic,
      addressesShown_verboseDump m pc opcode i.newline_notMem_mnemonic, List.length_map,
      CallStack.length_items]

theorem verboseDump_loses_nothing_wide :
    let m : Machine := { initial with i := 0x12345, stack := ⟨[0x30A, 0x202]⟩ }
    let dump (m : Machine) : String := m.verboseDump 0x204 0x00E0 Instruction.clearScreen.mnemonic
    Instruction.decode 0x00E0 = .ok .clearScreen ∧
      dump m = dump { m with awaitingKey := true } ∧ dump m ≠ dump { m with stack := ⟨[0x202, 0x30A]⟩ } ∧
        pointerShown? (dump m) = some (toString (addressesShown (dump m)).length) := by
  intro m dump
  have hi : Instruction.decode 0x00E0 = .ok .clearScreen := by rfl
  obtain ⟨hsame, hcount⟩ := verboseDump_loses_nothing m { m with awaitingKey := true } 0x204 0x204 hi hi
  obtain ⟨hother, -⟩ := verboseDump_loses_nothing m { m with stack := ⟨[0x202, 0x30A]⟩ } 0x204 0x204 hi hi
  refine ⟨hi, hsame.mpr ⟨rfl, rfl, rfl, rfl, rfl, rfl, rfl⟩, fun h => ?_, hcount⟩
  obtain ⟨-, -, -, -, hstack, -⟩ := hother.mp h
  cases hstack

end Machine

end Chip8
