import CommunityGraph.Datum
import CommunityGraph.Decimal.Shortest

/-! Data as one line of JSON. -/
namespace CommunityGraph.Datum

def hexDigit (n : Nat) : Char := if n < 10 then Char.ofNat (48 + n) else Char.ofNat (87 + n)

def escapedChar (c : Char) : List Char :=
  if c = '"' then ['\\', '"']
  else if c = '\\' then ['\\', '\\']
  else if c.toNat < 32 then
    ['\\', 'u', '0', '0', hexDigit (c.toNat / 16), hexDigit (c.toNat % 16)]
  else [c]

def quotedText (s : String) : String :=
  String.ofList ('"' :: s.toList.flatMap escapedChar ++ ['"'])

mutual

def writeJson (done : String) : Datum → String
  | .absent => done ++ "null"
  | .flag b => done ++ (if b then "true" else "false")
  | .number n => done ++ toString n
  | .double x => done ++ (if x.isFinite then Decimal.text x else "null")
  | .text s => done ++ quotedText s
  | .list items => (writeItems (done.push '[') true items).push ']'
  | .fields entries => (writeFields (done.push '\x7b') true entries).push '\x7d'

def writeItems (done : String) (first : Bool) : List Datum → String
  | [] => done
  | item :: items =>
      writeItems (writeJson (if first then done else done.push ',') item) false items

def writeFields (done : String) (first : Bool) : List (String × Datum) → String
  | [] => done
  | (key, value) :: entries =>
      let done := (if first then done else done.push ',') ++ quotedText key
      writeFields (writeJson (done.push ':') value) false entries

end

def json (d : Datum) : String := writeJson "" d

end CommunityGraph.Datum
