import LiteralAudit.Text.Quoted

/-!
# Internet addresses

`IpAddress.read` reads an address of either version. One of version 4 has four decimal fields; one of
version 6 has eight groups of hexadecimal digits, of which a run of zeros may be left out as `::` and
the last two may be written as an address of version 4, and it may name a zone behind a percent sign.
-/

namespace LiteralAudit

inductive IpAddress where
  | v4 (fields : List Nat)
  | v6 (groups : List Nat) (zone : Text)
  deriving Repr, DecidableEq

namespace IpAddress

/-- Why a text is no address. -/
inductive Fault where
  | noAddress
  | missingAddress
  | leadingZero
  | bigField
  | emptyField
  | manyFields
  | fewFields
  | unexpectedByte
  | emptyZone
  | longGroup
  | emptyGroup
  | misplacedFields
  | crowdedFields
  | missingColon
  | finalColon
  | secondGap
  | rest
  | fewGroups
  | emptyGap
  deriving Repr, DecidableEq

def Fault.message : Fault → Text
  | noAddress => "unable to parse IP"
  | missingAddress => "missing IPv6 address"
  | leadingZero => "IPv4 field has octet with leading zero"
  | bigField => "IPv4 field has value >255"
  | emptyField => "IPv4 field must have at least one digit"
  | manyFields => "IPv4 address too long"
  | fewFields => "IPv4 address too short"
  | unexpectedByte => "unexpected character"
  | emptyZone => "zone must be a non-empty string"
  | longGroup => "each group must have 4 or less digits"
  | emptyGroup => "each colon-separated field must have at least one digit"
  | misplacedFields => "embedded IPv4 address must replace the final 2 fields of the address"
  | crowdedFields => "too many hex fields to fit an embedded IPv4 at the end of the address"
  | missingColon => "unexpected character, want colon"
  | finalColon => "colon must be followed by more characters"
  | secondGap => "multiple :: in address"
  | rest => "trailing garbage after address"
  | fewGroups => "address string too short"
  | emptyGap => "the :: must expand to at least one field of zeros"

/-- A text that is no address, why, and from where on that shows, if it does. -/
structure Error where
  text : Text
  fault : Fault
  place : Text := []
  deriving Repr, DecidableEq

def Error.message (e : Error) : Text :=
  "ParseAddr(" ++ e.text.quoted ++ "): " ++ e.fault.message ++
    (if e.place.isEmpty then [] else " (at " ++ e.place.quoted ++ ")" : Text)

/-- Auxiliary to `readFields`: `done` are the fields before the current one, in reverse, `digits` is
the number of its digits and `value` their value. `last` is the byte before. -/
def readFieldsFrom (done : List Nat) (digits value : Nat) (last : UInt8) :
    Text → Except (Fault × Text) (List Nat)
  | [] => if done.length < 3 then .error (.fewFields, []) else .ok (value :: done).reverse
  | b :: after =>
    if Text.isDigit b then
      let value' := value * 10 + (b.toNat - 48)
      if digits == 1 && value == 0 then .error (.leadingZero, [])
      else if value' > 255 then .error (.bigField, [])
      else readFieldsFrom done (digits + 1) value' b after
    else if b == '.' then
      if after.isEmpty || last == '.' then .error (.emptyField, b :: after)
      else if done.length == 3 then .error (.manyFields, [])
      else readFieldsFrom (value :: done) 0 0 b after
    else .error (.unexpectedByte, b :: after)

/-- The four fields of an address of version 4. A point at the start has no field before it. -/
def readFields (t : Text) : Except (Fault × Text) (List Nat) := readFieldsFrom [] 0 0 '.' t

/-- The groups of an address of version 6 and, if a gap was met, how many of them stand before it.
`done` are the groups so far, in reverse; `fuel` is the number of groups still to come. -/
def readGroups : (fuel : Nat) → List Nat → Option Nat → Text →
    Except (Fault × Text) (List Nat × Option Nat)
  | 0, done, gap?, t => if t.isEmpty then .ok (done.reverse, gap?) else .error (.rest, t)
  | fuel + 1, done, gap?, t =>
    let digits := t.takeWhile fun b => (Text.hexValue? b).isSome
    let after := t.drop digits.length
    let value := digits.foldl (fun n b => n * 16 + (Text.hexValue? b).getD 0) 0
    if digits.length > 4 then .error (.longGroup, t)
    else if digits.isEmpty then .error (.emptyGroup, t)
    else if after.head? == some ('.' : UInt8) then
      if gap?.isNone && done.length != 6 then .error (.misplacedFields, t)
      else if done.length > 6 then .error (.crowdedFields, t)
      else match readFields t with
        | .ok [a, b, c, d] => .ok (done.reverse ++ [a * 256 + b, c * 256 + d], gap?)
        | .ok _ => .error (.fewFields, [])
        | .error e => .error e
    else
      let done := value :: done
      match after with
      | [] => .ok (done.reverse, gap?)
      | c :: next =>
        if c != ':' then .error (.missingColon, after)
        else match next with
          | [] => .error (.finalColon, after)
          | d :: more =>
            if d == ':' then
              if gap?.isSome then .error (.secondGap, next)
              else if more.isEmpty then .ok (done.reverse, some done.length)
              else readGroups fuel done (some done.length) more
            else readGroups fuel done gap? next

/-- Eight groups, zeros in the gap if there is one. -/
def fillGap (groups : List Nat) : Option Nat → Except (Fault × Text) (List Nat)
  | none => if groups.length < 8 then .error (.fewGroups, []) else .ok groups
  | some before =>
    if groups.length < 8 then
      .ok (groups.take before ++ List.replicate (8 - groups.length) 0 ++ groups.drop before)
    else .error (.emptyGap, [])

/-- An address of version 6. -/
def readV6 (t : Text) : Except (Fault × Text) IpAddress := do
  let (address, zone?) := match t.cutByte? '%' with
    | some (address, zone) => (address, some zone)
    | none => (t, none)
  if zone? == some [] then throw (.emptyZone, [])
  let zone := zone?.getD []
  if address == "::" then return .v6 (List.replicate 8 0) zone
  let (groups, gap?) ←
    match Text.dropFront? "::" address with
    | some after => readGroups 8 [] (some 0) after
    | none => readGroups 8 [] none address
  return .v6 (← fillGap groups gap?) zone

/-- The address that a text writes. The first point, colon or percent sign tells its version. -/
def read (t : Text) : Except Error IpAddress :=
  let address : Except (Fault × Text) IpAddress :=
    match t.find? fun (b : UInt8) => b == '.' || b == ':' || b == '%' with
    | none => .error (.noAddress, [])
    | some b =>
      if b == '.' then (readFields t).map .v4
      else if b == ':' then readV6 t
      else .error (.missingAddress, [])
  match address with
  | .ok a => .ok a
  | .error (fault, place) => .error ⟨t, fault, place⟩

end IpAddress

end LiteralAudit
