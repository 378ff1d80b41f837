import LiteralAudit.Text.Utf8
import LiteralAudit.Unicode.CharSet

/-!
# Grapheme clusters

What a reader takes for one character may be spelled by several: a letter and its accents, the two
letters of a flag, the parts of an emoji. The boundaries between such clusters follow the rules GB3 to
GB13 of Unicode 15.0. They are found by an automaton that remembers what kind of character it has
just passed (`Passed`); `Cluster.first` reads the cluster at the front of a text.
-/

/-!
## Widths of characters

How many cells of a terminal a single character takes: two for the wide and full-width characters of
East Asian scripts, none for controls and combining marks, and one otherwise.
-/

namespace LiteralAudit.Unicode

/-- Characters that are wide or full-width in East Asian typography. -/
def wideCharacters : CharSet := .ofLines
  ["1100-115F 231A-231B 2329-232A 23E9-23EC 23F0 23F3 25FD-25FE 2614-2615 2648-2653 267F 2693",
   "26A1 26AA-26AB 26BD-26BE 26C4-26C5 26CE 26D4 26EA 26F2-26F3 26F5 26FA 26FD 2705 270A-270B",
   "2728 274C 274E 2753-2755 2757 2795-2797 27B0 27BF 2B1B-2B1C 2B50 2B55 2E80-2E99 2E9B-2EF3",
   "2F00-2FD5 2FF0-2FFB 3001-303E 3041-3096 3099-30FF 3105-312F 3131-318E 3190-31E3 31F0-321E",
   "3220-3247 3250-4DBF 4E00-A48C A490-A4C6 A960-A97C AC00-D7A3 F900-FAFF FE10-FE19 FE30-FE52",
   "FE54-FE66 FE68-FE6B 16FE0-16FE4 16FF0-16FF1 17000-187F7 18800-18CD5 18D00-18D08 1AFF0-1AFF3",
   "1AFF5-1AFFB 1AFFD-1AFFE 1B000-1B122 1B132 1B150-1B152 1B155 1B164-1B167 1B170-1B2FB 1F004",
   "1F0CF 1F18E 1F191-1F19A 1F200-1F202 1F210-1F23B 1F240-1F248 1F250-1F251 1F260-1F265",
   "1F300-1F320 1F32D-1F335 1F337-1F37C 1F37E-1F393 1F3A0-1F3CA 1F3CF-1F3D3 1F3E0-1F3F0 1F3F4",
   "1F3F8-1F43E 1F440 1F442-1F4FC 1F4FF-1F53D 1F54B-1F54E 1F550-1F567 1F57A 1F595-1F596 1F5A4",
   "1F5FB-1F64F 1F680-1F6C5 1F6CC 1F6D0-1F6D2 1F6D5-1F6D7 1F6DC-1F6DF 1F6EB-1F6EC 1F6F4-1F6FC",
   "1F7E0-1F7EB 1F7F0 1F90C-1F93A 1F93C-1F945 1F947-1F9FF 1FA70-1FA7C 1FA80-1FA88 1FA90-1FABD",
   "1FABF-1FAC5 1FACE-1FADB 1FAE0-1FAE8 1FAF0-1FAF8 20000-2FFFD 30000-3FFFD"]

/-- Full-width forms. -/
def fullWidthCharacters : CharSet := .ofLines
  ["3000 FF01-FF60 FFE0-FFE6"]

/-- Marks drawn over the character before them. -/
def combiningMarks : CharSet := .ofLines
  ["300-36F 483-487 7EB-7F3 C00 C04 CF3 D00-D01 135D-135F 1A7F 1AB0-1ACE 1B6B-1B73 1DC0-1DFF",
   "20D0-20F0 2CEF-2CF1 2DE0-2DFF 3099-309A A66F-A672 A674-A67D A69E-A69F A6F0-A6F1 A8E0-A8F1",
   "FE20-FE2F 101FD 10376-1037A 10EAB-10EAC 10F46-10F50 10F82-10F85 11300-11301 1133B-1133C",
   "11366-1136C 11370-11374 16AF0-16AF4 1CF00-1CF2D 1CF30-1CF46 1D165-1D169 1D16D-1D172",
   "1D17B-1D182 1D185-1D18B 1D1AA-1D1AD 1D242-1D244 1E000-1E006 1E008-1E018 1E01B-1E021",
   "1E023-1E024 1E026-1E02A 1E08F 1E8D0-1E8D6"]

/-- Format characters without a shape. -/
def invisibleCharacters : CharSet := .ofLines
  ["70F 180B-180E 200B-200F 2028-202E 206A-206F FEFF FFF9-FFFB FFFE-FFFF"]

def isWide (c : Char) : Bool :=
  0x1100 ≤ c.toNat && (wideCharacters.mem c.toNat || fullWidthCharacters.mem c.toNat)

/-- The cells of one character in a column of a table. -/
def columnCells (c : Char) : Nat :=
  let n := c.toNat
  if n < 0x20 || (0x7F ≤ n && n ≤ 0x9F) || n == 0xAD then 0
  else if n < 0x300 then 1
  else if invisibleCharacters.mem n || combiningMarks.mem n then 0
  else if isWide c then 2
  else 1

end LiteralAudit.Unicode

namespace LiteralAudit.Unicode

/-- How a character takes part in a cluster. -/
inductive GraphemeClass where
  | plain | cr | lf | control | extending | prepended | spacing | joiner | pictograph | regional
  | hangulL | hangulV | hangulT | hangulLV | hangulLVT
  deriving Repr, DecidableEq, BEq, Inhabited

/-- Control characters beyond ASCII. -/
def graphemeControls : CharSet := .ofLines
  ["AD 61C 180E 200B 200E-200F 2028-202E 2060-206F FEFF FFF0-FFFB 13430-1343F 1BCA0-1BCA3",
   "1D173-1D17A E0000-E001F E0080-E00FF E01F0-E0FFF"]

/-- Characters that extend the one before them. -/
def graphemeExtenders : CharSet := .ofLines
  ["300-36F 483-489 591-5BD 5BF 5C1-5C2 5C4-5C5 5C7 610-61A 64B-65F 670 6D6-6DC 6DF-6E4 6E7-6E8",
   "6EA-6ED 711 730-74A 7A6-7B0 7EB-7F3 7FD 816-819 81B-823 825-827 829-82D 859-85B 898-89F",
   "8CA-8E1 8E3-902 93A 93C 941-948 94D 951-957 962-963 981 9BC 9BE 9C1-9C4 9CD 9D7 9E2-9E3 9FE",
   "A01-A02 A3C A41-A42 A47-A48 A4B-A4D A51 A70-A71 A75 A81-A82 ABC AC1-AC5 AC7-AC8 ACD AE2-AE3",
   "AFA-AFF B01 B3C B3E-B3F B41-B44 B4D B55-B57 B62-B63 B82 BBE BC0 BCD BD7 C00 C04 C3C C3E-C40",
   "C46-C48 C4A-C4D C55-C56 C62-C63 C81 CBC CBF CC2 CC6 CCC-CCD CD5-CD6 CE2-CE3 D00-D01 D3B-D3C",
   "D3E D41-D44 D4D D57 D62-D63 D81 DCA DCF DD2-DD4 DD6 DDF E31 E34-E3A E47-E4E EB1 EB4-EBC",
   "EC8-ECE F18-F19 F35 F37 F39 F71-F7E F80-F84 F86-F87 F8D-F97 F99-FBC FC6 102D-1030 1032-1037",
   "1039-103A 103D-103E 1058-1059 105E-1060 1071-1074 1082 1085-1086 108D 109D 135D-135F",
   "1712-1714 1732-1733 1752-1753 1772-1773 17B4-17B5 17B7-17BD 17C6 17C9-17D3 17DD 180B-180D",
   "180F 1885-1886 18A9 1920-1922 1927-1928 1932 1939-193B 1A17-1A18 1A1B 1A56 1A58-1A5E 1A60",
   "1A62 1A65-1A6C 1A73-1A7C 1A7F 1AB0-1ACE 1B00-1B03 1B34-1B3A 1B3C 1B42 1B6B-1B73 1B80-1B81",
   "1BA2-1BA5 1BA8-1BA9 1BAB-1BAD 1BE6 1BE8-1BE9 1BED 1BEF-1BF1 1C2C-1C33 1C36-1C37 1CD0-1CD2",
   "1CD4-1CE0 1CE2-1CE8 1CED 1CF4 1CF8-1CF9 1DC0-1DFF 200C 20D0-20F0 2CEF-2CF1 2D7F 2DE0-2DFF",
   "302A-302F 3099-309A A66F-A672 A674-A67D A69E-A69F A6F0-A6F1 A802 A806 A80B A825-A826 A82C",
   "A8C4-A8C5 A8E0-A8F1 A8FF A926-A92D A947-A951 A980-A982 A9B3 A9B6-A9B9 A9BC-A9BD A9E5",
   "AA29-AA2E AA31-AA32 AA35-AA36 AA43 AA4C AA7C AAB0 AAB2-AAB4 AAB7-AAB8 AABE-AABF AAC1",
   "AAEC-AAED AAF6 ABE5 ABE8 ABED FB1E FE00-FE0F FE20-FE2F FF9E-FF9F 101FD 102E0 10376-1037A",
   "10A01-10A03 10A05-10A06 10A0C-10A0F 10A38-10A3A 10A3F 10AE5-10AE6 10D24-10D27 10EAB-10EAC",
   "10EFD-10EFF 10F46-10F50 10F82-10F85 11001 11038-11046 11070 11073-11074 1107F-11081",
   "110B3-110B6 110B9-110BA 110C2 11100-11102 11127-1112B 1112D-11134 11173 11180-11181",
   "111B6-111BE 111C9-111CC 111CF 1122F-11231 11234 11236-11237 1123E 11241 112DF 112E3-112EA",
   "11300-11301 1133B-1133C 1133E 11340 11357 11366-1136C 11370-11374 11438-1143F 11442-11444",
   "11446 1145E 114B0 114B3-114B8 114BA 114BD 114BF-114C0 114C2-114C3 115AF 115B2-115B5",
   "115BC-115BD 115BF-115C0 115DC-115DD 11633-1163A 1163D 1163F-11640 116AB 116AD 116B0-116B5",
   "116B7 1171D-1171F 11722-11725 11727-1172B 1182F-11837 11839-1183A 11930 1193B-1193C 1193E",
   "11943 119D4-119D7 119DA-119DB 119E0 11A01-11A0A 11A33-11A38 11A3B-11A3E 11A47 11A51-11A56",
   "11A59-11A5B 11A8A-11A96 11A98-11A99 11C30-11C36 11C38-11C3D 11C3F 11C92-11CA7 11CAA-11CB0",
   "11CB2-11CB3 11CB5-11CB6 11D31-11D36 11D3A 11D3C-11D3D 11D3F-11D45 11D47 11D90-11D91 11D95",
   "11D97 11EF3-11EF4 11F00-11F01 11F36-11F3A 11F40 11F42 13440 13447-13455 16AF0-16AF4",
   "16B30-16B36 16F4F 16F8F-16F92 16FE4 1BC9D-1BC9E 1CF00-1CF2D 1CF30-1CF46 1D165 1D167-1D169",
   "1D16E-1D172 1D17B-1D182 1D185-1D18B 1D1AA-1D1AD 1D242-1D244 1DA00-1DA36 1DA3B-1DA6C 1DA75",
   "1DA84 1DA9B-1DA9F 1DAA1-1DAAF 1E000-1E006 1E008-1E018 1E01B-1E021 1E023-1E024 1E026-1E02A",
   "1E08F 1E130-1E136 1E2AE 1E2EC-1E2EF 1E4EC-1E4EF 1E8D0-1E8D6 1E944-1E94A 1F3FB-1F3FF",
   "E0020-E007F E0100-E01EF"]

/-- Characters that join the one after them. -/
def graphemePrepended : CharSet := .ofLines
  ["600-605 6DD 70F 890-891 8E2 D4E 110BD 110CD 111C2-111C3 1193F 11941 11A3A 11A84-11A89 11D46",
   "11F02"]

/-- Marks that follow the character they belong to and take room. -/
def graphemeSpacing : CharSet := .ofLines
  ["903 93B 93E-940 949-94C 94E-94F 982-983 9BF-9C0 9C7-9C8 9CB-9CC A03 A3E-A40 A83 ABE-AC0 AC9",
   "ACB-ACC B02-B03 B40 B47-B48 B4B-B4C BBF BC1-BC2 BC6-BC8 BCA-BCC C01-C03 C41-C44 C82-C83 CBE",
   "CC0-CC1 CC3-CC4 CC7-CC8 CCA-CCB CF3 D02-D03 D3F-D40 D46-D48 D4A-D4C D82-D83 DD0-DD1 DD8-DDE",
   "DF2-DF3 E33 EB3 F3E-F3F F7F 1031 103B-103C 1056-1057 1084 1715 1734 17B6 17BE-17C5 17C7-17C8",
   "1923-1926 1929-192B 1930-1931 1933-1938 1A19-1A1A 1A55 1A57 1A6D-1A72 1B04 1B3B 1B3D-1B41",
   "1B43-1B44 1B82 1BA1 1BA6-1BA7 1BAA 1BE7 1BEA-1BEC 1BEE 1BF2-1BF3 1C24-1C2B 1C34-1C35 1CE1",
   "1CF7 A823-A824 A827 A880-A881 A8B4-A8C3 A952-A953 A983 A9B4-A9B5 A9BA-A9BB A9BE-A9C0",
   "AA2F-AA30 AA33-AA34 AA4D AAEB AAEE-AAEF AAF5 ABE3-ABE4 ABE6-ABE7 ABE9-ABEA ABEC 11000 11002",
   "11082 110B0-110B2 110B7-110B8 1112C 11145-11146 11182 111B3-111B5 111BF-111C0 111CE",
   "1122C-1122E 11232-11233 11235 112E0-112E2 11302-11303 1133F 11341-11344 11347-11348",
   "1134B-1134D 11362-11363 11435-11437 11440-11441 11445 114B1-114B2 114B9 114BB-114BC 114BE",
   "114C1 115B0-115B1 115B8-115BB 115BE 11630-11632 1163B-1163C 1163E 116AC 116AE-116AF 116B6",
   "11726 1182C-1182E 11838 11931-11935 11937-11938 1193D 11940 11942 119D1-119D3 119DC-119DF",
   "119E4 11A39 11A57-11A58 11A97 11C2F 11C3E 11CA9 11CB1 11CB4 11D8A-11D8E 11D93-11D94 11D96",
   "11EF5-11EF6 11F03 11F34-11F35 11F3E-11F3F 11F41 16F51-16F87 16FF0-16FF1 1D166 1D16D"]

/-- Pictographs. -/
def pictographs : CharSet := .ofLines
  ["A9 AE 203C 2049 2122 2139 2194-2199 21A9-21AA 231A-231B 2328 2388 23CF 23E9-23F3 23F8-23FA",
   "24C2 25AA-25AB 25B6 25C0 25FB-25FE 2600-2605 2607-2612 2614-2685 2690-2705 2708-2712 2714",
   "2716 271D 2721 2728 2733-2734 2744 2747 274C 274E 2753-2755 2757 2763-2767 2795-2797 27A1",
   "27B0 27BF 2934-2935 2B05-2B07 2B1B-2B1C 2B50 2B55 3030 303D 3297 3299 1F000-1F0FF",
   "1F10D-1F10F 1F12F 1F16C-1F171 1F17E-1F17F 1F18E 1F191-1F19A 1F1AD-1F1E5 1F201-1F20F 1F21A",
   "1F22F 1F232-1F23A 1F23C-1F23F 1F249-1F3FA 1F400-1F53D 1F546-1F64F 1F680-1F6FF 1F774-1F77F",
   "1F7D5-1F7FF 1F80C-1F80F 1F848-1F84F 1F85A-1F85F 1F888-1F88F 1F8AE-1F8FF 1F90C-1F93A",
   "1F93C-1F945 1F947-1FAFF 1FC00-1FFFD"]

/-- Pictographs that are shown as emoji unless told otherwise. -/
def emojiPresentation : CharSet := .ofLines
  ["231A-231B 23E9-23EC 23F0 23F3 25FD-25FE 2614-2615 2648-2653 267F 2693 26A1 26AA-26AB",
   "26BD-26BE 26C4-26C5 26CE 26D4 26EA 26F2-26F3 26F5 26FA 26FD 2705 270A-270B 2728 274C 274E",
   "2753-2755 2757 2795-2797 27B0 27BF 2B1B-2B1C 2B50 2B55 1F004 1F0CF 1F18E 1F191-1F19A",
   "1F1E6-1F1FF 1F201 1F21A 1F22F 1F232-1F236 1F238-1F23A 1F250-1F251 1F300-1F320 1F32D-1F335",
   "1F337-1F37C 1F37E-1F393 1F3A0-1F3CA 1F3CF-1F3D3 1F3E0-1F3F0 1F3F4 1F3F8-1F43E 1F440",
   "1F442-1F4FC 1F4FF-1F53D 1F54B-1F54E 1F550-1F567 1F57A 1F595-1F596 1F5A4 1F5FB-1F64F",
   "1F680-1F6C5 1F6CC 1F6D0-1F6D2 1F6D5-1F6D7 1F6DC-1F6DF 1F6EB-1F6EC 1F6F4-1F6FC 1F7E0-1F7EB",
   "1F7F0 1F90C-1F93A 1F93C-1F945 1F947-1F9FF 1FA70-1FA7C 1FA80-1FA88 1FA90-1FABD 1FABF-1FAC5",
   "1FACE-1FADB 1FAE0-1FAE8 1FAF0-1FAF8"]

/-- The class of a character. -/
def graphemeClass (ch : Char) : GraphemeClass :=
  let c := ch.toNat
  if c < 0x80 then
    if c == 0x0D then .cr else if c == 0x0A then .lf
    else if c < 0x20 || c == 0x7F then .control else .plain
  else if graphemeControls.mem c then .control
  else if c == 0x200D then .joiner
  else if 0x1F1E6 ≤ c && c ≤ 0x1F1FF then .regional
  else if (0x1100 ≤ c && c ≤ 0x115F) || (0xA960 ≤ c && c ≤ 0xA97C) then .hangulL
  else if (0x1160 ≤ c && c ≤ 0x11A7) || (0xD7B0 ≤ c && c ≤ 0xD7C6) then .hangulV
  else if (0x11A8 ≤ c && c ≤ 0x11FF) || (0xD7CB ≤ c && c ≤ 0xD7FB) then .hangulT
  else if 0xAC00 ≤ c && c ≤ 0xD7A3 then
    if (c - 0xAC00) % 28 == 0 then .hangulLV else .hangulLVT
  else if graphemeExtenders.mem c then .extending
  else if graphemeSpacing.mem c then .spacing
  else if graphemePrepended.mem c then .prepended
  else if pictographs.mem c then .pictograph
  else .plain

/-- How many cells of a terminal a character of a class takes. -/
def cells (cls : GraphemeClass) (ch : Char) : Nat :=
  match cls with
  | .control | .cr | .lf | .extending | .joiner => 0
  | .regional => 2
  | .pictograph => if emojiPresentation.mem ch.toNat then 2 else 1
  | _ =>
    if ch.toNat == 0x2E3A then 3
    else if ch.toNat == 0x2E3B then 4
    else if isWide ch then 2 else 1

/-! ## The automaton -/

/-- What the automaton has just passed. -/
inductive Passed where
  | any | cr | controlOrLf | leading | vowel | trailing | prepended | pictograph | pictographJoined
  | oddRegional | evenRegional
  deriving Repr, DecidableEq, BEq, Inhabited

/-- A rule of the automaton: what is passed next, whether there is a boundary, and the number of the
rule, where the lower number wins. -/
structure BoundaryRule where
  next : Passed
  boundary : Bool
  number : Nat

/-- The rule for what was passed and the class of the next character, if there is one of its own. A
rule for `any` or for `plain` stands in for the pairs that have none. -/
def boundaryRule? : Passed → GraphemeClass → Option BoundaryRule
  | .any, .cr => some ⟨.cr, true, 50⟩
  | .any, .lf => some ⟨.controlOrLf, true, 50⟩
  | .any, .control => some ⟨.controlOrLf, true, 50⟩
  | .cr, .plain => some ⟨.any, true, 40⟩
  | .controlOrLf, .plain => some ⟨.any, true, 40⟩
  | .cr, .lf => some ⟨.controlOrLf, false, 30⟩
  | .any, .hangulL => some ⟨.leading, true, 9990⟩
  | .leading, .hangulL => some ⟨.leading, false, 60⟩
  | .leading, .hangulV => some ⟨.vowel, false, 60⟩
  | .leading, .hangulLV => some ⟨.vowel, false, 60⟩
  | .leading, .hangulLVT => some ⟨.trailing, false, 60⟩
  | .any, .hangulLV => some ⟨.vowel, true, 9990⟩
  | .any, .hangulV => some ⟨.vowel, true, 9990⟩
  | .vowel, .hangulV => some ⟨.vowel, false, 70⟩
  | .vowel, .hangulT => some ⟨.trailing, false, 70⟩
  | .any, .hangulLVT => some ⟨.trailing, true, 9990⟩
  | .any, .hangulT => some ⟨.trailing, true, 9990⟩
  | .trailing, .hangulT => some ⟨.trailing, false, 80⟩
  | .any, .extending => some ⟨.any, false, 90⟩
  | .any, .joiner => some ⟨.any, false, 90⟩
  | .any, .spacing => some ⟨.any, false, 91⟩
  | .any, .prepended => some ⟨.prepended, true, 9990⟩
  | .prepended, .plain => some ⟨.any, false, 92⟩
  | .any, .pictograph => some ⟨.pictograph, true, 9990⟩
  | .pictograph, .extending => some ⟨.pictograph, false, 110⟩
  | .pictograph, .joiner => some ⟨.pictographJoined, false, 110⟩
  | .pictographJoined, .pictograph => some ⟨.pictograph, false, 110⟩
  | .any, .regional => some ⟨.oddRegional, true, 9990⟩
  | .oddRegional, .regional => some ⟨.evenRegional, false, 120⟩
  | .evenRegional, .regional => some ⟨.oddRegional, true, 120⟩
  | _, _ => none

/-- What is passed after a character of a class, and whether a boundary lies before it. -/
def Passed.step (p : Passed) (cls : GraphemeClass) : Passed × Bool :=
  match boundaryRule? p cls with
  | some r => (r.next, r.boundary)
  | none =>
    match boundaryRule? p .plain, boundaryRule? .any cls with
    | some ofPassed, some ofClass =>
      (ofClass.next, if ofPassed.number < ofClass.number then ofPassed.boundary else ofClass.boundary)
    | some ofPassed, none => (ofPassed.next, ofPassed.boundary)
    | none, some ofClass => (ofClass.next, ofClass.boundary)
    | none, none => (.any, true)

/-! ## Reading clusters -/

/-- What reading a cluster leaves for the next one: what was passed, and the class of the character
behind the cluster. -/
structure Lookahead where
  passed : Passed
  cls : GraphemeClass
  deriving Repr, DecidableEq, BEq, Inhabited

/-- A cluster: its number of bytes and of cells, and what it leaves for the next one. -/
structure Cluster where
  size : Nat
  width : Nat
  ahead : Lookahead
  deriving Repr, DecidableEq, BEq, Inhabited

namespace Cluster

/-- The width of a cluster whose first character has class `first` after one more character. A
pictograph is narrow or wide as its variation selector says; flags and syllables do not grow. -/
def widen (first : GraphemeClass) (width : Nat) (cls : GraphemeClass) (ch : Char) : Nat :=
  match first with
  | .pictograph => if ch.toNat == 0xFE0E then 1 else if ch.toNat == 0xFE0F then 2 else width
  | .regional | .hangulL => width
  | _ => width + cells cls ch

/-- Auxiliary to `first`: the cluster so far, with `skip` bytes of it still in front of the text. -/
def grow (first : GraphemeClass) : Nat → Cluster → Text → Cluster
  | _, c, [] => { c with ahead := ⟨.any, c.ahead.cls⟩ }
  | skip + 1, c, _ :: rest => grow first skip c rest
  | 0, c, b :: rest =>
    let r := Rune.first b rest
    let cls := graphemeClass r.char
    let (passed, boundary) := c.ahead.passed.step cls
    if boundary then { c with ahead := ⟨passed, cls⟩ }
    else grow first (r.width - 1)
      ⟨c.size + r.width, widen first c.width cls r.char, ⟨passed, cls⟩⟩ rest

/-- The cluster at the front of `b :: rest`. `ahead?` is what the reader of an earlier cluster left;
it is taken for what stands in front, whatever does stand there. -/
def first (ahead? : Option Lookahead) (b : UInt8) (rest : Text) : Cluster :=
  let r := Rune.first b rest
  let start := ahead?.getD
    ⟨(Passed.any.step (graphemeClass r.char)).1, graphemeClass r.char⟩
  grow start.cls (r.width - 1) ⟨r.width, cells start.cls r.char, start⟩ rest

end Cluster

end LiteralAudit.Unicode

namespace LiteralAudit.Text

open Unicode

/-- Auxiliary to `clusters`: the bytes of the current cluster in reverse, and how many are still to
come. -/
def clustersFrom : Text → Nat → Option Lookahead → Text → List Text
  | part, _, _, [] => if part.isEmpty then [] else [part.reverse]
  | part, skip + 1, ahead?, b :: rest => clustersFrom (b :: part) skip ahead? rest
  | part, 0, ahead?, b :: rest =>
    let c := Cluster.first ahead? b rest
    let later := clustersFrom [b] (c.size - 1) (some c.ahead) rest
    if part.isEmpty then later else part.reverse :: later

/-- The clusters of a text, from left to right. -/
def clusters (t : Text) : List Text := clustersFrom [] 0 none t

/-- The cells of a cluster in a table: those of its first character that takes any. -/
def clusterCells (cluster : Text) : Nat :=
  ((cluster.chars.map columnCells).find? (0 < ·)).getD 0

/-- The cells of a text in a table. -/
def tableCells (t : Text) : Nat := t.clusters.foldl (fun n c => n + clusterCells c) 0

/-- Auxiliary to `fitted`: the clusters that fit into `room` cells. -/
def takeCells (room : Nat) : List Text → Text
  | [] => []
  | c :: rest =>
    if clusterCells c ≤ room then c ++ takeCells (room - clusterCells c) rest else []

/-- A text cut to a number of cells, with an ellipsis in the last of them when something is cut. -/
def fitted (room : Nat) (t : Text) : Text :=
  if t.tableCells ≤ room then t else takeCells (room - 1) t.clusters ++ "…"

end LiteralAudit.Text
