/-
  Domain names in ASCII.

  A domain is a list of labels with dots between them.  Its characters are mapped first: capital
  letters of the Latin, Greek and Cyrillic scripts to small ones, wide and ideographic forms of
  ASCII characters to those, and characters that show nothing to nothing.  A letter and a combining
  mark are joined then; no label begins with one.  A label that is not ASCII is encoded behind the
  mark `xn--`; a label that has the mark already has to be one that encoding could have made.

    * `Domain.mapped`        the mapping of a character;
    * `Domain.ofMapped?`     a mapped domain in ASCII;
    * `Domain.ascii?`        a domain in ASCII.
-/
import ServiceRegistry.Text.Pieces
import ServiceRegistry.Url.Accents
import ServiceRegistry.Url.Punycode

namespace ServiceRegistry.Domain

open Text

/-! ## Characters -/

/-- Whether a code is in `lo … hi`. -/
def between (lo hi n : Nat) : Bool := lo ≤ n && n ≤ hi

/-- Whether the letters at these codes stand in pairs, a capital at an even code before a small one
    at an odd code. -/
def inEvenPairs (n : Nat) : Bool :=
  between 0x100 0x12F n || between 0x132 0x137 n || between 0x14A 0x177 n || between 0x1DE 0x1EF n
    || between 0x1F8 0x21F n || between 0x222 0x233 n || between 0x3D8 0x3EF n
    || between 0x460 0x481 n || between 0x48A 0x4BF n || between 0x4D0 0x52F n
    || between 0x1E00 0x1E95 n || between 0x1EA0 0x1EFF n

/-- Whether the letters at these codes stand in pairs, a capital at an odd code before a small one
    at an even code. -/
def inOddPairs (n : Nat) : Bool :=
  between 0x139 0x148 n || between 0x179 0x17E n || between 0x1CD 0x1DC n || between 0x4C1 0x4CE n

/-- How far the small letter is from a capital one outside pairs. -/
def shift (n : Nat) : Int :=
  if between 0x41 0x5A n || between 0xC0 0xD6 n || between 0xD8 0xDE n then 32
  else if n = 0x178 then -121
  else if n = 0x386 then 38
  else if between 0x388 0x38A n then 37
  else if n = 0x38C then 64
  else if between 0x38E 0x38F n then 63
  else if between 0x391 0x3A1 n || between 0x3A3 0x3AB n then 32
  else if between 0x400 0x40F n then 80
  else if between 0x410 0x42F n then 32
  else if n = 0x4C0 then 15
  else if between 0x531 0x556 n then 48
  else 0

/-- The small letter of a letter. -/
def small (c : Char) : Char :=
  let n := c.toNat
  if inEvenPairs n then Char.ofNat (n + (1 - n % 2))
  else if inOddPairs n then Char.ofNat (n + n % 2)
  else Char.ofNat (n + shift n).toNat

/-- Whether a character shows nothing and is left out. -/
def isHidden (c : Char) : Bool :=
  let n := c.toNat
  n = 0xAD || n = 0x34F || between 0x180B 0x180D n || n = 0x180F || n = 0x200B || n = 0x2060
    || n = 0x2064 || between 0xFE00 0xFE0F n || n = 0xFEFF || between 0xE0100 0xE01EF n

/-- Compatibility characters and what stands for them. -/
def compatible : List (Char × String) :=
  [('ª', "a"), ('º', "o"), ('¹', "1"), ('²', "2"), ('³', "3"), ('µ', "μ"), ('¼', "1⁄4"),
    ('½', "1⁄2"), ('¾', "3⁄4"), ('İ', "i\u0307"), ('Ĳ', "ij"), ('ĳ', "ij"), ('Ŀ', "l·"),
    ('ŀ', "l·"), ('ŉ', "ʼn"), ('ſ', "s"), ('ẞ', "ß"), ('℃', "°c"), ('℡', "tel"), ('№', "no"),
    ('™', "tm"), ('\u2126', "ω"), ('\u212A', "k"), ('\u212B', "å"), ('ﬀ', "ff"), ('ﬁ', "fi"),
    ('ﬂ', "fl"), ('。', "."), ('｡', "."), ('\u00A8', " \u0308"), ('\u00AF', " \u0304"),
    ('\u00B4', " \u0301"), ('\u00B8', " \u0327")]

/-- What stands for a character. -/
def mapped (c : Char) : List Char :=
  let n := c.toNat
  if isHidden c then []
  else if between 0xFF01 0xFF5E n then [small (Char.ofNat (n - 0xFEE0))]
  else if n = 0xA0 || between 0x2000 0x200A n || n = 0x202F || n = 0x205F || n = 0x3000 then [' ']
  else if between 0x2460 0x2468 n then [Char.ofNat (n - 0x2460 + 0x31)]
  else if between 0x24B6 0x24CF n then [Char.ofNat (n - 0x24B6 + 0x61)]
  else if between 0x24D0 0x24E9 n then [Char.ofNat (n - 0x24D0 + 0x61)]
  else match compatible.find? (·.1 = c) with
    | some (_, text) => text.toList
    | none => [small c]

/-- Whether a character never stands in a domain: control characters, the blank, separators,
    joiners, private characters and those that are none. -/
def isForbidden (c : Char) : Bool :=
  let n := c.toNat
  n ≤ 0x20 || "%#/:<>?@[\\]^|".toList.contains c || between 0x7F 0x9F n || n = 0x061C
    || between 0x200C 0x200F n || between 0x2028 0x202E n || between 0x2061 0x2063 n
    || between 0x2066 0x206F n || between 0xE000 0xF8FF n || between 0xFDD0 0xFDEF n
    || between 0xFFF9 0xFFFF n || 0xE0000 ≤ n || 0xFFFE ≤ n % 0x10000

/-! ## Labels -/

/-- The mark of an encoded label. -/
def mark : List Char := "xn--".toList

/-- Whether all characters are ASCII. -/
def isAscii (label : List Char) : Bool := label.all (·.toNat < 128)

/-- Whether a label that has the mark could have been made by encoding. -/
def isEncoded (label : List Char) : Bool :=
  match Punycode.decode? (label.drop mark.length) with
  | some cs =>
    !isAscii cs && Accents.composed cs = cs && !cs.head?.any Accents.isMark
      && cs.all fun c => mapped c = [c] && !isForbidden c
  | none => false

/-- A mapped label in ASCII. -/
def label? (label : List Char) : Option (List Char) :=
  if label.any isForbidden || label.head?.any Accents.isMark then none
  else if !isAscii label then some (mark ++ Punycode.encode label)
  else if mark.isPrefixOf label && !isEncoded label then none
  else some label

/-! ## Domains -/

/-- Labels with dots between them. -/
def dotted : List (List Char) → List Char
  | [] => []
  | [label] => label
  | label :: labels => label ++ '.' :: dotted labels

/-- A mapped domain in ASCII. -/
def ofMapped? (cs : List Char) : Option (List Char) :=
  ((pieces '.' cs).mapM label?).map dotted

/-- A domain in ASCII. -/
def ascii? (cs : List Char) : Option (List Char) :=
  ofMapped? (Accents.composed (cs.flatMap mapped))

end ServiceRegistry.Domain
