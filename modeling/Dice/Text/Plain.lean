/-!
Plain texts: what is left of a text when the control sequences for a terminal are taken out of it.

A sequence starts with an escape character and goes on to its final character, or to the end of the
text.
-/

namespace Dice.Text

inductive Mode where
  | text
  /-- A sequence of which only the escape character has been read. -/
  | escape
  | escapeIntermediate
  | controlSequence
  | deviceEntry
  | deviceParameter
  | deviceIntermediate
  /-- A string for the terminal, up to its terminator. -/
  | string
  /-- A string that the bell may end as well. -/
  | title
deriving DecidableEq, Repr

namespace Mode

def afterControl (c : Char) (mode : Mode) : Mode :=
  if c = '\x1b' then escape
  else if c = '\x18' ∨ c = '\x1a' then text
  else if c = '\x07' ∧ mode = title then text
  else mode

def afterGraphic (c : Char) : Mode → Mode
  | text => text
  | escape =>
    if c < '0' then escapeIntermediate
    else if c = '[' then controlSequence
    else if c = ']' then title
    else if c = 'P' then deviceEntry
    else if c = 'X' ∨ c = '^' ∨ c = '_' then string
    else text
  | escapeIntermediate => if c < '0' then escapeIntermediate else text
  | controlSequence => if c < '@' then controlSequence else text
  | deviceEntry =>
    if c < '0' then deviceIntermediate else if c < '@' then deviceParameter else string
  | deviceParameter =>
    if c < '0' then deviceIntermediate else if c < '<' then deviceParameter else string
  | deviceIntermediate => if c < '0' then deviceIntermediate else string
  | string => string
  | title => title

/-- The mode behind a character beyond the ASCII range; strings are read by bytes, of which one
terminates them. -/
def afterForeign (c : Char) (mode : Mode) : Mode :=
  if mode = string ∧ 0x9C ∈ String.utf8EncodeChar c then text else mode

def showsLayout : Mode → Bool
  | text | escape | escapeIntermediate | controlSequence => true
  | deviceEntry | deviceParameter | deviceIntermediate | string | title => false

end Mode

def isAscii (c : Char) : Bool :=
  c.toNat < 0x80

def isControl (c : Char) : Bool :=
  c < ' ' || c = '\x7f'

def isLayout (c : Char) : Bool :=
  c = '\t' || c = '\n' || c = '\x0c' || c = '\r'

/-- Reads on in a mode. Behind a tab or a line break inside a sequence everything is shown up to
the next control character, unless a character beyond the ASCII range ends the sequence before. -/
def plainFrom (mode : Mode) (shown : Bool) : List Char → List Char
  | [] => []
  | c :: rest =>
    if isControl c then
      if isLayout c && mode.showsLayout then c :: plainFrom mode true rest
      else plainFrom (mode.afterControl c) false rest
    else if shown || mode = .text then
      c :: plainFrom (if isAscii c then mode else .text) shown rest
    else plainFrom (if isAscii c then mode.afterGraphic c else mode.afterForeign c) false rest

def plain (text : List Char) : List Char :=
  plainFrom .text false text

end Dice.Text
