import StoryCatalog.Text.CodePoint

/-!
# Internet addresses

Which texts are addresses of the two versions of the protocol: four decimal octets, or eight groups
of hexadecimal digits of which one run of zero groups may be left out. The last two groups may be
written as octets.
-/

namespace StoryCatalog

namespace Address

private def colon : CodePoint := CodePoint.ofChar ':'
private def dot : CodePoint := CodePoint.ofChar '.'
private def percent : CodePoint := CodePoint.ofChar '%'

/-- Whether a text is a decimal number up to 255 without a leading zero. -/
def isOctet (t : Text) : Bool :=
  match t.mapM CodePoint.digitValue? with
  | none => false
  | some digits =>
    !digits.isEmpty && digits.length ≤ 3 && (t == ("0" : Text) || digits.head? != some 0) &&
      Text.readDigits 10 digits ≤ 255

/-- Whether a text is an address of four octets. -/
def isIpv4 (t : Text) : Bool :=
  let octets := Text.splitOn dot t
  octets.length == 4 && octets.all isOctet

/-- Whether a text is a group of up to four hexadecimal digits. -/
def isGroup (t : Text) : Bool := !t.isEmpty && t.length ≤ 4 && t.all CodePoint.isHexDigit

/-- The parts of an address, with octets at the end counted as two groups. -/
def groups (t : Text) : List Text :=
  let parts := Text.splitOn colon t
  let last := parts.getLast?.getD []
  if isIpv4 last then parts.dropLast ++ [("0" : Text), "0"] else parts

/-- The groups before and after the first inner group that is left empty. -/
def splitAtGap (parts : List Text) : Option (List Text × List Text) :=
  match parts with
  | [] => none
  | first :: rest =>
    match rest.dropWhile (!·.isEmpty) with
    | _ :: last :: more => some (first :: rest.takeWhile (!·.isEmpty), last :: more)
    | _ => none

/-- The groups beside a gap; an empty one at the end of the address is part of the gap. -/
def besideGap (parts : List Text) : List Text := if parts = [[]] then [] else parts

/-- Whether a text is an address of eight groups. -/
def isIpv6WithoutZone (t : Text) : Bool :=
  match splitAtGap (groups t) with
  | none => (groups t).length == 8 && (groups t).all isGroup
  | some (high, low) =>
    let kept := besideGap high ++ besideGap low
    kept.length ≤ 7 && kept.all isGroup

/-- Whether a text is an address of eight groups, with or without the name of a zone. -/
def isIpv6 (t : Text) : Bool :=
  let zone := t.dropWhile (· != percent)
  isIpv6WithoutZone (t.takeWhile (· != percent)) &&
    (zone.isEmpty || (1 < zone.length && !zone.tail.contains percent))

end Address

end StoryCatalog
