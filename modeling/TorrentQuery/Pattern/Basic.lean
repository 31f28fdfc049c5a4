import TorrentQuery.Pattern.Glob
import TorrentQuery.Pattern.Needle
import TorrentQuery.Pattern.Regex.Reader
import TorrentQuery.Pattern.Template

namespace TorrentQuery

open Text

inductive Pattern where
  /-- Only the empty text. -/
  | empty
  | always
  | nonEmpty
  | regex (source : String) (r : Regex)
  | glob (source : String) (g : Glob)
  /-- A shell pattern that has yet to be filled in. -/
  | template (pieces : List Template.Piece)

namespace Pattern

/-- The expression between the slashes of a text, an `i` behind which changes nothing. -/
def regexBody? (s : List Char) : Option (List Char) :=
  (after? ['/'] s).bind fun r => (before? ['/', 'i'] r).or (before? ['/'] r)

/-- Reads a pattern; nothing if it is an invalid regular expression. -/
def read? (text : String) : Option Pattern :=
  let s := text.toList
  if s.isEmpty then some .empty
  else match regexBody? s with
    | some [] | some ['.', '*'] => some .always
    | some ['.', '+'] => some .nonEmpty
    | some body =>
      let source := String.ofList body
      (Regex.read? source).map (.regex source)
    | none =>
      if occursIn ['\x7b', '\x7b'] s && occursIn ['\x7d', '\x7d'] s then
        some (.template (Template.pieces text))
      else if s.all (· == '*') then some .always
      else some (.glob text (.ofText text))

end Pattern

end TorrentQuery
