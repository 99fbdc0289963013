namespace Chip8.Text.Hex

/-- The digits of a number without leading zeros; zero has one digit. -/
def digits (n : Nat) : List Char :=
  Nat.toDigits 16 n

def fill (width : Nat) (ds : List Char) : List Char :=
  List.replicate (width - ds.length) '0' ++ ds

/-- The width counts the minus sign, which stands before the zeros. -/
def ofInt (width : Nat) (n : Int) : String :=
  if n < 0 then String.ofList ('-' :: fill (width - 1) (digits n.natAbs))
  else String.ofList (fill width (digits n.natAbs))

def ofBytes (bytes : List UInt8) : String :=
  String.join (bytes.map fun b => ofInt 2 b.toNat)

def digit? (c : Char) : Option Nat :=
  if '0' ≤ c ∧ c ≤ '9' then some (c.toNat - '0'.toNat)
  else if 'a' ≤ c ∧ c ≤ 'f' then some (c.toNat - 'a'.toNat + 10)
  else if 'A' ≤ c ∧ c ≤ 'F' then some (c.toNat - 'A'.toNat + 10)
  else none

def bytes? : List Char → Option (List UInt8)
  | [] => some []
  | [_] => none
  | high :: low :: rest => do
    let high ← digit? high
    let low ← digit? low
    let bytes ← bytes? rest
    return UInt8.ofNat (16 * high + low) :: bytes

theorem digit?_digitChar : ∀ d : Fin 16, digit? (Nat.digitChar d) = some d.val := by
  decide

theorem toList_ofInt_byte :
    ∀ n : Fin 256, (ofInt 2 n.val).toList = [Nat.digitChar (n / 16), Nat.digitChar (n % 16)] := by
  decide +kernel

theorem bytes?_byte_append (b : UInt8) (rest : List Char) :
    bytes? ((ofInt 2 b.toNat).toList ++ rest) = (bytes? rest).map (b :: ·) := by
  have hb : b.toNat < 256 := b.toNat_lt
  rw [toList_ofInt_byte ⟨b.toNat, hb⟩]
  have hh := digit?_digitChar ⟨b.toNat / 16, by omega⟩
  have hl := digit?_digitChar ⟨b.toNat % 16, by omega⟩
  have hs : UInt8.ofNat (16 * (b.toNat / 16) + b.toNat % 16) = b := by
    rw [Nat.div_add_mod, UInt8.ofNat_toNat]
  simp only [List.cons_append, List.nil_append, bytes?, hh, hl]
  cases bytes? rest with
  | none => rfl
  | some bs => exact congrArg (fun byte => some (byte :: bs)) hs

theorem bytes?_ofBytes (bs : List UInt8) : bytes? (ofBytes bs).toList = some bs := by
  induction bs with
  | nil => rfl
  | cons b bs ih =>
    have h : (ofBytes (b :: bs)).toList = (ofInt 2 b.toNat).toList ++ (ofBytes bs).toList := by
      simp [ofBytes]
    rw [h, bytes?_byte_append, ih]
    rfl

end Chip8.Text.Hex
