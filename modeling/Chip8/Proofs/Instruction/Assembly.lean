import Chip8.Processor
import Chip8.Proofs.Text.Hex
import Chip8.Text.Fields

namespace Chip8.Assembly

inductive Operation where
  | cls
  | ret
  | jp
  | call
  | se
  | sne
  | ld
  | add
  | or
  | and
  | xor
  | sub
  | shr
  | subn
  | shl
  | rnd
  | drw
  | skp
  | sknp
deriving DecidableEq

namespace Operation

def all : List Operation :=
  [cls, ret, jp, call, se, sne, ld, add, or, and, xor, sub, shr, subn, shl, rnd, drw, skp, sknp]

def text : Operation → String
  | cls => "CLS"
  | ret => "RET"
  | jp => "JP"
  | call => "CALL"
  | se => "SE"
  | sne => "SNE"
  | ld => "LD"
  | add => "ADD"
  | or => "OR"
  | and => "AND"
  | xor => "XOR"
  | sub => "SUB"
  | shr => "SHR"
  | subn => "SUBN"
  | shl => "SHL"
  | rnd => "RND"
  | drw => "DRW"
  | skp => "SKP"
  | sknp => "SKNP"

def ofText? (cs : List Char) : Option Operation :=
  all.find? fun o => o.text.toList == cs

theorem ofText?_text (o : Operation) : ofText? o.text.toList = some o := by
  cases o <;> rfl

theorem blank_not_mem_text (o : Operation) : ' ' ∉ o.text.toList := by
  cases o <;> decide

end Operation

inductive Operand where
  | register (x : Register)
  | digit (n : Fin 16)
  | byte (b : UInt8)
  | address (a : Address)
  | index
  | delay
  | sound
  | key
  | glyph
  | decimal
  | block
deriving DecidableEq

namespace Operand

def text : Operand → String
  | register x => Instruction.registerName x
  | digit n => "0x" ++ Text.Hex.ofInt 1 n.val
  | byte b => Instruction.byteText b
  | address a => Instruction.addressText a
  | index => "I"
  | delay => "DT"
  | sound => "ST"
  | key => "K"
  | glyph => "F"
  | decimal => "B"
  | block => "[I]"

/-- Numbers are told apart by how many figures they have. -/
def number? (figures : List Char) : Option Operand :=
  let n := Text.Hex.value figures
  match figures.length with
  | 1 => some (.digit (Fin.ofNat 16 n))
  | 2 => some (.byte (UInt8.ofNat n))
  | 3 => some (.address ⟨n % 0x1000, Nat.mod_lt n (by decide)⟩)
  | _ => none

def ofText? : List Char → Option Operand
  | 'V' :: figure => some (.register (Fin.ofNat 16 (Text.Hex.value figure)))
  | '0' :: 'x' :: figures => number? figures
  | ['I'] => some .index
  | ['D', 'T'] => some .delay
  | ['S', 'T'] => some .sound
  | ['K'] => some .key
  | ['F'] => some .glyph
  | ['B'] => some .decimal
  | ['[', 'I', ']'] => some .block
  | _ => none

theorem ofText?_text (o : Operand) : ofText? o.text.toList = some o := by
  cases o with
  | register x =>
    rw [text, Instruction.registerName, String.toList_append]
    show some (register (Fin.ofNat 16 (Text.Hex.value (Text.Hex.ofInt 1 x.val).toList))) = _
    rw [Text.Hex.value_ofInt, Fin.ofNat_val_eq_self]
  | digit n =>
    have hl := Text.Hex.length_ofInt (show 0 < 1 by decide) (show n.val < 16 ^ 1 from n.isLt)
    rw [text, String.toList_append]
    show number? (Text.Hex.ofInt 1 n.val).toList = _
    simp only [number?, hl, Text.Hex.value_ofInt, Fin.ofNat_val_eq_self]
  | byte b =>
    have hl := Text.Hex.length_ofInt (show 0 < 2 by decide) (show b.toNat < 16 ^ 2 from b.toNat_lt)
    rw [text, Instruction.byteText, String.toList_append]
    show number? (Text.Hex.ofInt 2 b.toNat).toList = _
    simp only [number?, hl, Text.Hex.value_ofInt, UInt8.ofNat_toNat]
  | address a =>
    have hl := Text.Hex.length_ofInt (show 0 < 3 by decide) (show a.val < 16 ^ 3 from a.isLt)
    have hm : a.val % 0x1000 = a.val := Nat.mod_eq_of_lt a.isLt
    rw [text, Instruction.addressText, String.toList_append]
    show number? (Text.Hex.ofInt 3 a.val).toList = _
    simp only [number?, hl, Text.Hex.value_ofInt, hm]
  | _ => rfl

theorem comma_not_mem_text (o : Operand) : ',' ∉ o.text.toList := by
  have hex (width n : Nat) : ',' ∉ (Text.Hex.ofInt width n).toList :=
    Text.Hex.notMem_ofInt (by decide) (by decide) width n
  cases o with
  | register x => simpa [text, Instruction.registerName] using hex 1 x.val
  | digit n => simpa [text] using hex 1 n.val
  | byte b => simpa [text, Instruction.byteText] using hex 2 b.toNat
  | address a => simpa [text, Instruction.addressText] using hex 3 a.val
  | _ => decide

end Operand

structure Line where
  operation : Operation
  operands : List Operand
deriving DecidableEq

namespace Line

def field (o : Operand) : List Char :=
  ' ' :: o.text.toList

def text (l : Line) : List Char :=
  l.operation.text.toList ++ Text.Fields.join (l.operands.map field)

def ofText? (cs : List Char) : Option Line := do
  let operation ← Operation.ofText? (cs.takeWhile (· ≠ ' '))
  match cs.dropWhile (· ≠ ' ') with
  | [] => return ⟨operation, []⟩
  | rest => return ⟨operation, ← (Text.Fields.split rest).mapM fun field => Operand.ofText? field.tail⟩

theorem split_fields {operands : List Operand} (h : operands ≠ []) :
    Text.Fields.split (Text.Fields.join (operands.map field)) = operands.map field := by
  refine Text.Fields.split_join (by simpa using h) fun f hf => ?_
  obtain ⟨o, -, rfl⟩ := List.mem_map.mp hf
  simpa [field] using o.comma_not_mem_text

theorem mapM_fields (operands : List Operand) :
    (operands.map field).mapM (fun f => Operand.ofText? f.tail) = some operands := by
  induction operands with
  | nil => rfl
  | cons o operands ih => simp [field, Operand.ofText?_text, ih]

theorem join_fields_cons (o : Operand) (operands : List Operand) :
    ∃ rest, Text.Fields.join ((o :: operands).map field) = ' ' :: rest := by
  cases operands <;> exact ⟨_, rfl⟩

theorem ofText?_text (l : Line) : ofText? l.text = some l := by
  obtain ⟨operation, operands⟩ := l
  have ho : ∀ c ∈ operation.text.toList, decide (c ≠ ' ') = true := by
    intro c hc
    exact decide_eq_true fun h => operation.blank_not_mem_text (h ▸ hc)
  rw [ofText?, text, List.takeWhile_append_of_pos ho, List.dropWhile_append_of_pos ho]
  cases operands with
  | nil => simp [Text.Fields.join, Operation.ofText?_text]
  | cons o operands =>
    have hs := split_fields (List.cons_ne_nil o operands)
    have hm := mapM_fields (o :: operands)
    obtain ⟨rest, hr⟩ := join_fields_cons o operands
    rw [hr] at hs ⊢
    simp only [ne_eq, decide_not, decide_true, Bool.not_true, Bool.false_eq_true, not_false_eq_true,
      List.takeWhile_cons_of_neg, List.dropWhile_cons_of_neg, List.append_nil, Operation.ofText?_text,
      hs, hm]
    rfl

end Line

end Chip8.Assembly

namespace Chip8.Instruction

open Assembly

/-- The operation and the operands that the assembler text shows. -/
def line : Instruction → Line
  | clearScreen => ⟨.cls, []⟩
  | ret => ⟨.ret, []⟩
  | jump a => ⟨.jp, [.address a]⟩
  | call a => ⟨.call, [.address a]⟩
  | skipIfByte x b => ⟨.se, [.register x, .byte b]⟩
  | skipUnlessByte x b => ⟨.sne, [.register x, .byte b]⟩
  | skipIfSame x y => ⟨.se, [.register x, .register y]⟩
  | loadByte x b => ⟨.ld, [.register x, .byte b]⟩
  | addByte x b => ⟨.add, [.register x, .byte b]⟩
  | copy x y => ⟨.ld, [.register x, .register y]⟩
  | or x y => ⟨.or, [.register x, .register y]⟩
  | and x y => ⟨.and, [.register x, .register y]⟩
  | xor x y => ⟨.xor, [.register x, .register y]⟩
  | add x y => ⟨.add, [.register x, .register y]⟩
  | sub x y => ⟨.sub, [.register x, .register y]⟩
  | shiftRight x => ⟨.shr, [.register x]⟩
  | subFrom x y => ⟨.subn, [.register x, .register y]⟩
  | shiftLeft x => ⟨.shl, [.register x]⟩
  | skipUnlessSame x y => ⟨.sne, [.register x, .register y]⟩
  | loadIndex a => ⟨.ld, [.index, .address a]⟩
  | jumpFromV0 a => ⟨.jp, [.register 0, .address a]⟩
  | random x b => ⟨.rnd, [.register x, .byte b]⟩
  | draw x y n => ⟨.drw, [.register x, .register y, .digit n]⟩
  | skipIfKey x => ⟨.skp, [.register x]⟩
  | skipUnlessKey x => ⟨.sknp, [.register x]⟩
  | readDelay x => ⟨.ld, [.register x, .delay]⟩
  | waitKey x => ⟨.ld, [.register x, .key]⟩
  | setDelay x => ⟨.ld, [.delay, .register x]⟩
  | setSound x => ⟨.ld, [.sound, .register x]⟩
  | addIndex x => ⟨.add, [.index, .register x]⟩
  | loadGlyph x => ⟨.ld, [.glyph, .register x]⟩
  | storeDecimal x => ⟨.ld, [.decimal, .register x]⟩
  | storeRegisters x => ⟨.ld, [.block, .register x]⟩
  | loadRegisters x => ⟨.ld, [.register x, .block]⟩

def ofLine? : Line → Option Instruction
  | ⟨.cls, []⟩ => some clearScreen
  | ⟨.ret, []⟩ => some ret
  | ⟨.jp, [.address a]⟩ => some (jump a)
  | ⟨.jp, [.register x, .address a]⟩ => if x = 0 then some (jumpFromV0 a) else none
  | ⟨.call, [.address a]⟩ => some (call a)
  | ⟨.se, [.register x, .byte b]⟩ => some (skipIfByte x b)
  | ⟨.se, [.register x, .register y]⟩ => some (skipIfSame x y)
  | ⟨.sne, [.register x, .byte b]⟩ => some (skipUnlessByte x b)
  | ⟨.sne, [.register x, .register y]⟩ => some (skipUnlessSame x y)
  | ⟨.ld, [.register x, .byte b]⟩ => some (loadByte x b)
  | ⟨.ld, [.register x, .register y]⟩ => some (copy x y)
  | ⟨.ld, [.index, .address a]⟩ => some (loadIndex a)
  | ⟨.ld, [.register x, .delay]⟩ => some (readDelay x)
  | ⟨.ld, [.register x, .key]⟩ => some (waitKey x)
  | ⟨.ld, [.delay, .register x]⟩ => some (setDelay x)
  | ⟨.ld, [.sound, .register x]⟩ => some (setSound x)
  | ⟨.ld, [.glyph, .register x]⟩ => some (loadGlyph x)
  | ⟨.ld, [.decimal, .register x]⟩ => some (storeDecimal x)
  | ⟨.ld, [.block, .register x]⟩ => some (storeRegisters x)
  | ⟨.ld, [.register x, .block]⟩ => some (loadRegisters x)
  | ⟨.add, [.register x, .byte b]⟩ => some (addByte x b)
  | ⟨.add, [.register x, .register y]⟩ => some (add x y)
  | ⟨.add, [.index, .register x]⟩ => some (addIndex x)
  | ⟨.or, [.register x, .register y]⟩ => some (or x y)
  | ⟨.and, [.register x, .register y]⟩ => some (and x y)
  | ⟨.xor, [.register x, .register y]⟩ => some (xor x y)
  | ⟨.sub, [.register x, .register y]⟩ => some (sub x y)
  | ⟨.shr, [.register x]⟩ => some (shiftRight x)
  | ⟨.subn, [.register x, .register y]⟩ => some (subFrom x y)
  | ⟨.shl, [.register x]⟩ => some (shiftLeft x)
  | ⟨.rnd, [.register x, .byte b]⟩ => some (random x b)
  | ⟨.drw, [.register x, .register y, .digit n]⟩ => some (draw x y n)
  | ⟨.skp, [.register x]⟩ => some (skipIfKey x)
  | ⟨.sknp, [.register x]⟩ => some (skipUnlessKey x)
  | _ => none

theorem ofLine?_line (i : Instruction) : ofLine? i.line = some i := by
  cases i <;> rfl

theorem toList_mnemonic (i : Instruction) : i.mnemonic.toList = i.line.text := by
  have h0 : (registerName 0).toList = ['V', '0'] := by rfl
  cases i <;>
    simp [mnemonic, line, Line.text, Line.field, Text.Fields.join, Operation.text, Operand.text, h0]

/-- Reading assembler text. -/
def ofMnemonic? (text : String) : Option Instruction :=
  (Line.ofText? text.toList).bind ofLine?

theorem ofMnemonic?_mnemonic (i : Instruction) : ofMnemonic? i.mnemonic = some i := by
  rw [ofMnemonic?, toList_mnemonic, Line.ofText?_text, Option.bind_some, ofLine?_line]

theorem mnemonic_injective {i j : Instruction} (h : i.mnemonic = j.mnemonic) : i = j := by
  have hi := ofMnemonic?_mnemonic i
  rw [h, ofMnemonic?_mnemonic] at hi
  exact (Option.some.inj hi).symm

/-- Two integers that are decoded to the same assembler text come to the same when they are executed without
a trace: to the same session, or to the same fault and the same session that it leaves. -/
theorem execution_of_text (random : Nat → Int) (s : Session) {a b : Int} {i j : Instruction}
    (ha : decode a = .ok i) (hb : decode b = .ok j) (h : i.mnemonic = j.mnemonic) :
    (⟨random, false⟩ : Processor).decodeExecute a s = (⟨random, false⟩ : Processor).decodeExecute b s := by
  have hij := mnemonic_injective h
  subst hij
  simp only [Processor.decodeExecute, ha, hb, Bool.false_eq_true, ↓reduceIte]

theorem execution_of_text_unseen :
    decode 0x5AB7 = .ok (.skipIfSame 0xA 0xB) ∧ decode (-0xFA541) = .ok (.skipIfSame 0xA 0xB) ∧
    (skipIfSame 0xA 0xB).mnemonic = "SE Va, Vb" ∧
    (⟨fun _ => 0, false⟩ : Processor).decodeExecute 0x5AB7 (Session.start .initial) =
      (⟨fun _ => 0, false⟩ : Processor).decodeExecute (-0xFA541) (Session.start .initial) := by
  have ha : decode 0x5AB7 = .ok (.skipIfSame 0xA 0xB) := by rfl
  have hb : decode (-0xFA541) = .ok (.skipIfSame 0xA 0xB) := by rfl
  have ht : (skipIfSame 0xA 0xB).mnemonic = "SE Va, Vb" := by decide +kernel
  have he := execution_of_text (fun _ => 0) (Session.start .initial) ha hb rfl
  exact ⟨ha, hb, ht, he⟩

end Chip8.Instruction
