namespace Distfix.MessagePack

def bigEndian : Nat → Nat → List UInt8
  | 0, _ => []
  | width + 1, n => bigEndian width (n / 256) ++ [UInt8.ofNat n]

def nil : List UInt8 := [0xc0]

def bool (b : Bool) : List UInt8 := [if b then 0xc3 else 0xc2]

def nat (n : Nat) : List UInt8 :=
  if n < 0x80 then [UInt8.ofNat n]
  else if n < 0x100 then 0xcc :: bigEndian 1 n
  else if n < 0x10000 then 0xcd :: bigEndian 2 n
  else if n < 0x100000000 then 0xce :: bigEndian 4 n
  else 0xcf :: bigEndian 8 n

def textHeader (length : Nat) : List UInt8 :=
  if length < 0x20 then [UInt8.ofNat (0xa0 + length)]
  else if length < 0x100 then 0xd9 :: bigEndian 1 length
  else if length < 0x10000 then 0xda :: bigEndian 2 length
  else 0xdb :: bigEndian 4 length

def text (s : String) : List UInt8 :=
  let bytes := s.toUTF8.data.toList
  textHeader bytes.length ++ bytes

def arrayHeader (length : Nat) : List UInt8 :=
  if length < 0x10 then [UInt8.ofNat (0x90 + length)]
  else if length < 0x10000 then 0xdc :: bigEndian 2 length
  else 0xdd :: bigEndian 4 length

def list {α : Type} (item : α → List UInt8) (items : List α) : List UInt8 :=
  arrayHeader items.length ++ items.flatMap item

def option {α : Type} (item : α → List UInt8) : Option α → List UInt8
  | none => nil
  | some a => item a

end Distfix.MessagePack
