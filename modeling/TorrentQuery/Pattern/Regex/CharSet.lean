import TorrentQuery.Text.Case
import TorrentQuery.Text.Script

namespace TorrentQuery.Regex

open Text

inductive CharSet where
  | empty
  /-- Code points from the first to the last. -/
  | span (first last : Nat)
  | word
  | digit
  | blank
  | alphabetic
  | cased
  | categories (cs : List Category)
  | script (code : String)
  | inverse (s : CharSet)
  | union (s t : CharSet)
  | inter (s t : CharSet)
  /-- With all characters that differ from a member in case only. -/
  | folded (s : CharSet)
  /-- With all ASCII letters that differ from a member in case only. -/
  | asciiFolded (s : CharSet)
  deriving DecidableEq, Inhabited, Repr

namespace CharSet

def single (c : Char) : CharSet := .span c.toNat c.toNat

def all : CharSet := .span 0 0x10FFFF

def ofSpans (spans : List (Char × Char)) : CharSet :=
  spans.foldr (fun (a, b) s => .union (.span a.toNat b.toNat) s) .empty

def diff (s t : CharSet) : CharSet := .inter s (.inverse t)

def symmetricDiff (s t : CharSet) : CharSet := .union (diff s t) (diff t s)

def otherCase (c : Char) : Char := if c.isUpper then c.toLower else c.toUpper

def mem : CharSet → Char → Bool
  | empty, _ => false
  | span a b, c => a ≤ c.toNat && c.toNat ≤ b
  | word, c => isWordChar c
  | digit, c => isDecimalDigit c
  | blank, c => isBlank c
  | alphabetic, c => isAlphabetic c
  | cased, c => isCased c
  | categories cs, c => cs.contains (category c)
  | script code, c => scriptCode c == code
  | inverse s, c => !s.mem c
  | union s t, c => s.mem c || t.mem c
  | inter s t, c => s.mem c && t.mem c
  | folded s, c => (caseVariants c).any s.mem
  | asciiFolded s, c => s.mem c || s.mem (otherCase c)

def asciiDigit : CharSet := ofSpans [('0', '9')]

def asciiBlank : CharSet := ofSpans [('\t', '\r'), (' ', ' ')]

def asciiWord : CharSet := ofSpans [('0', '9'), ('A', 'Z'), ('_', '_'), ('a', 'z')]

def asciiClass? : String → Option CharSet
  | "alnum" => some (ofSpans [('0', '9'), ('A', 'Z'), ('a', 'z')])
  | "alpha" => some (ofSpans [('A', 'Z'), ('a', 'z')])
  | "ascii" => some (.span 0 0x7F)
  | "blank" => some (ofSpans [('\t', '\t'), (' ', ' ')])
  | "cntrl" => some (.union (.span 0 0x1F) (.span 0x7F 0x7F))
  | "digit" => some asciiDigit
  | "graph" => some (ofSpans [('!', '~')])
  | "lower" => some (ofSpans [('a', 'z')])
  | "print" => some (ofSpans [(' ', '~')])
  | "punct" => some (ofSpans [('!', '/'), (':', '@'), ('[', '\x60'), ('\x7b', '~')])
  | "space" => some asciiBlank
  | "upper" => some (ofSpans [('A', 'Z')])
  | "word" => some asciiWord
  | "xdigit" => some (ofSpans [('0', '9'), ('A', 'F'), ('a', 'f')])
  | _ => none

def categoriesOf? : String → Option (List Category)
  | "lu" | "uppercaseletter" => some [.lu]
  | "ll" | "lowercaseletter" => some [.ll]
  | "lt" | "titlecaseletter" => some [.lt]
  | "lc" | "casedletter" => some [.lu, .ll, .lt]
  | "lm" | "modifierletter" => some [.lm]
  | "lo" | "otherletter" => some [.lo]
  | "l" | "letter" => some [.lu, .ll, .lt, .lm, .lo]
  | "mn" | "nonspacingmark" => some [.mn]
  | "mc" | "spacingmark" => some [.mc]
  | "me" | "enclosingmark" => some [.me]
  | "m" | "mark" | "combiningmark" => some [.mn, .mc, .me]
  | "nd" | "decimalnumber" | "digit" => some [.nd]
  | "nl" | "letternumber" => some [.nl]
  | "no" | "othernumber" => some [.no]
  | "n" | "number" => some [.nd, .nl, .no]
  | "pc" | "connectorpunctuation" => some [.pc]
  | "pd" | "dashpunctuation" => some [.pd]
  | "ps" | "openpunctuation" => some [.ps]
  | "pe" | "closepunctuation" => some [.pe]
  | "pi" | "initialpunctuation" => some [.pi]
  | "pf" | "finalpunctuation" => some [.pf]
  | "po" | "otherpunctuation" => some [.po]
  | "p" | "punctuation" | "punct" => some [.pc, .pd, .ps, .pe, .pi, .pf, .po]
  | "sm" | "mathsymbol" => some [.sm]
  | "sc" | "currencysymbol" => some [.sc]
  | "sk" | "modifiersymbol" => some [.sk]
  | "so" | "othersymbol" => some [.so]
  | "s" | "symbol" => some [.sm, .sc, .sk, .so]
  | "zs" | "spaceseparator" => some [.zs]
  | "zl" | "lineseparator" => some [.zl]
  | "zp" | "paragraphseparator" => some [.zp]
  | "z" | "separator" => some [.zs, .zl, .zp]
  | "cc" | "control" | "cntrl" => some [.cc]
  | "cf" | "format" => some [.cf]
  | "co" | "privateuse" => some [.co]
  | "cn" | "unassigned" => some [.cn]
  | "c" | "other" => some [.cc, .cf, .co, .cn]
  | _ => none

/-- Names of properties are compared without regard to case, blanks, hyphens and underscores, and
without a leading `is`. -/
def normalName (s : String) : String :=
  let cs := (s.toList.filter fun c => !(isBlank c || c == '-' || c == '_')).map Char.toLower
  let short := (after? ['i', 's'] cs).getD cs
  String.ofList (if cs == ['i', 's', 'c'] then cs else short.filter (·.val < 128))

def ofCategoryName? (name : String) : Option CharSet :=
  match name with
  | "any" => some all
  | "ascii" => some (.span 0 0x7F)
  | "assigned" => some (.inverse (.categories [.cn]))
  | n => (categoriesOf? n).map .categories

def ofScriptName? (name : String) : Option CharSet :=
  (scriptOfName? name).map .script

/-- Upper case letters, with the letters in frames and the Roman numerals that count as such. -/
def uppercase : CharSet :=
  .union (.categories [.lu]) (.union (.span 8544 8559) (.union (.span 9398 9423)
    (.union (.span 127280 127305) (.union (.span 127312 127337) (.span 127344 127369)))))

def lowercase : CharSet := diff .cased (.union uppercase (.categories [.lt]))

def ofBinaryName? : String → Option CharSet
  | "uppercase" | "upper" => some uppercase
  | "lowercase" | "lower" => some lowercase
  | "cased" => some .cased
  | "asciihexdigit" | "ahex" => asciiClass? "xdigit"
  | "alphabetic" | "alpha" => some .alphabetic
  | "whitespace" | "wspace" | "space" => some .blank
  | _ => none

/-- Bytes that the set takes in a compiled pattern, by estimate. -/
def weight : CharSet → Nat
  | empty => 0
  | span _ b => if b < 128 then 24 else 250
  | word => 50000
  | digit => 3000
  | blank => 400
  | alphabetic => 45000
  | cased => 30000
  | categories _ => 20000
  | script _ => 1000
  | inverse s => s.weight + 250
  | union s t => s.weight + t.weight
  | inter s t => max s.weight t.weight
  | folded s => s.weight + 24
  | asciiFolded s => s.weight + 24

end CharSet

/-- What names of properties stand for: names of their own, and names with a value. -/
structure Library where
  named? : String → Option CharSet
  valued? : String → String → Option CharSet

/-- The names of general categories and scripts, and of some properties that characters have or
lack. -/
def Library.known : Library where
  named? name :=
    let n := CharSet.normalName name
    (CharSet.ofBinaryName? n).or ((CharSet.ofCategoryName? n).or (CharSet.ofScriptName? n))
  valued? name value :=
    match CharSet.normalName name with
    | "generalcategory" | "gc" => CharSet.ofCategoryName? (CharSet.normalName value)
    | "script" | "sc" | "scriptextensions" | "scx" => CharSet.ofScriptName? (CharSet.normalName value)
    | _ => none

end TorrentQuery.Regex
