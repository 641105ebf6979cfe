import Dice.Parse.Expression
import Dice.Proofs.Piece.Placed

/-!
Pieces read by descent.

A reader takes characters from the front of what is left of a text, or fails. The grammar of pieces
is put together from readers that can all fail; but it reads every text to its end, and finds the
pieces that the text is cut into, where they stand.
-/

namespace Dice

/-- What is left of a text, and the byte at which it starts. -/
structure Cursor where
  byte : Nat
  rest : List Char

abbrev Reader := StateT Cursor Option

namespace Reader

variable {α β : Type}

def one (kind : Char → Option α) : Reader α := fun cursor =>
  match cursor.rest with
  | [] => none
  | c :: rest => (kind c).map fun value => (value, ⟨cursor.byte + c.utf8Size, rest⟩)

/-- One character that is none of these. -/
def noneOf (others : List Char) : Reader Char :=
  one fun c => if c ∈ others then none else some c

/-- What the reader gives, or nothing where it fails. -/
def optional (reader : Reader α) : Reader (Option α) := fun cursor =>
  match reader cursor with
  | none => some (none, cursor)
  | some (value, next) => some (some value, next)

/-- The reader over and over, up to where it fails. It may not succeed without taking anything. -/
def many (reader : Reader α) (cursor : Cursor) : Option (List α × Cursor) :=
  match reader cursor with
  | none => some ([], cursor)
  | some (value, next) =>
    if next.rest.length < cursor.rest.length then
      (many reader next).map fun others => (value :: others.1, others.2)
    else none
termination_by cursor.rest.length

def finish : Reader Unit := fun cursor =>
  if cursor.rest = [] then some ((), cursor) else none

def sides : Reader (Marker × List Char) := do
  let marker ← one Marker.ofChar?
  let behind ← many (noneOf ['+', '-'])
  return (marker, behind)

/-- What stands behind a sign: a head, and sides if there is a marker. -/
def body : Reader (List Char × Option (Marker × List Char)) := do
  let head ← many (noneOf ['+', '-', 'd', 'D'])
  let sides ← optional sides
  return (head, sides)

/-- A piece with the bytes that were taken for it. -/
def piece (sign : Reader (Option Sign)) : Reader Located := do
  let start ← get
  let sign ← sign
  let parts ← body
  let stop ← get
  return ⟨⟨sign, parts.1, parts.2⟩, ⟨start.byte, stop.byte⟩⟩

/-- All pieces of a text. Only the first one can lack a sign. -/
def pieces : Reader (List Located) := do
  let first ← piece (optional (one Sign.ofChar?))
  let others ← many (piece (some <$> one Sign.ofChar?))
  finish
  return first :: others

def read? (start : Nat) (text : List Char) : Option (List Located) :=
  (pieces ⟨start, text⟩).map Prod.fst

theorem bind_of_some {first : Reader α} {next : α → Reader β} {cursor middle : Cursor} {value : α}
    (read : first cursor = some (value, middle)) : (first >>= next) cursor = next value middle := by
  change (first cursor).bind (fun pair => next pair.1 pair.2) = _
  rw [read, Option.bind_some]

theorem bind_of_none {first : Reader α} {next : α → Reader β} {cursor : Cursor}
    (failed : first cursor = none) : (first >>= next) cursor = none := by
  change (first cursor).bind (fun pair => next pair.1 pair.2) = _
  rw [failed, Option.bind_none]

theorem map_of_some {reader : Reader α} {give : α → β} {cursor next : Cursor} {value : α}
    (read : reader cursor = some (value, next)) :
    (give <$> reader) cursor = some (give value, next) := by
  change (reader cursor).bind (fun pair => some (give pair.1, pair.2)) = _
  rw [read, Option.bind_some]

variable {byte : Nat} {c : Char} {front rest : List Char}

theorem one_of_some {kind : Char → Option α} {value : α} (found : kind c = some value) :
    one kind ⟨byte, c :: rest⟩ = some (value, ⟨byte + c.utf8Size, rest⟩) := by
  simp only [one, found, Option.map_some]

theorem one_of_none {kind : Char → Option α} (other : ∀ c ∈ rest.head?, kind c = none) :
    one kind ⟨byte, rest⟩ = none := by
  cases rest with
  | nil => rfl
  | cons c rest => simp only [one, other c rfl, Option.map_none]

theorem many_noneOf {others : List Char} (inside : ∀ c ∈ front, c ∉ others)
    (outside : ∀ c ∈ rest.head?, c ∈ others) :
    many (noneOf others) ⟨byte, front ++ rest⟩ =
      some (front, ⟨byte + Text.byteSize front, rest⟩) := by
  induction front generalizing byte with
  | nil =>
    cases rest with
    | nil => simp [many, noneOf, one]
    | cons c rest => simp [many, noneOf, one, outside c rfl]
  | cons c front ih =>
    obtain ⟨first, behind⟩ := List.forall_mem_cons.mp inside
    rw [List.cons_append, many, noneOf, one_of_some (if_neg first), ← noneOf]
    simp [ih behind, Nat.add_assoc]

theorem optional_of_some {reader : Reader α} {cursor next : Cursor} {value : α}
    (read : reader cursor = some (value, next)) :
    optional reader cursor = some (some value, next) := by
  simp only [optional, read]

theorem optional_of_none {reader : Reader α} {cursor : Cursor} (failed : reader cursor = none) :
    optional reader cursor = some (none, cursor) := by
  simp only [optional, failed]

theorem sides_of_marker {marker : Marker} {behind : List Char}
    (inside : ∀ c ∈ behind, c ∉ ['+', '-']) (stops : ∀ c ∈ rest.head?, c ∈ ['+', '-']) :
    sides ⟨byte, marker.toChar :: (behind ++ rest)⟩ =
      some ((marker, behind), ⟨byte + Text.byteSize (marker.toChar :: behind), rest⟩) := by
  rw [sides, bind_of_some (one_of_some marker.ofChar?_toChar),
    bind_of_some (many_noneOf inside stops), Text.byteSize_cons, ← Nat.add_assoc]
  rfl

theorem sides_of_stop (stops : ∀ c ∈ rest.head?, c ∈ ['+', '-']) : sides ⟨byte, rest⟩ = none := by
  have unmarked : ∀ c ∈ ['+', '-'], Marker.ofChar? c = none := by simp [Marker.ofChar?]
  exact bind_of_none (one_of_none fun c first => unmarked c (stops c first))

/-- The parts of a clean piece are read up to the end of the text or the next sign. -/
theorem body_of_clean {each : Piece} (clean : each.Clean)
    (stops : ∀ c ∈ rest.head?, c ∈ ['+', '-']) :
    body ⟨byte, each.body ++ rest⟩ =
      some ((each.head, each.sides), ⟨byte + Text.byteSize each.body, rest⟩) := by
  obtain ⟨heads, free⟩ := Located.clean_iff.mp clean
  obtain ⟨sign, head, part⟩ := each
  cases part with
  | none =>
    have outside : ∀ c ∈ rest.head?, c ∈ ['+', '-', 'd', 'D'] :=
      fun c first => List.mem_append_left ['d', 'D'] (stops c first)
    simp only [Piece.body, List.append_nil]
    rw [body, bind_of_some (many_noneOf heads outside),
      bind_of_some (optional_of_none (sides_of_stop stops))]
    rfl
  | some part =>
    have outside : ∀ c ∈ (part.1.toChar :: (part.2 ++ rest)).head?, c ∈ ['+', '-', 'd', 'D'] := by
      rintro c ⟨⟩
      cases part.1 <;> decide
    simp only [Piece.body, List.append_assoc, List.cons_append]
    rw [body, bind_of_some (many_noneOf heads outside),
      bind_of_some (optional_of_some (sides_of_marker (free part rfl) stops)),
      Text.byteSize_append, ← Nat.add_assoc]
    rfl

theorem piece_of_clean {each : Piece} {sign : Reader (Option Sign)} (clean : each.Clean)
    (stops : ∀ c ∈ rest.head?, c ∈ ['+', '-'])
    (signed : sign ⟨byte, each.chars ++ rest⟩ = some (each.sign,
      ⟨byte + Text.byteSize (each.sign.map Sign.toChar).toList, each.body ++ rest⟩)) :
    piece sign ⟨byte, each.chars ++ rest⟩ =
      some (⟨each, ⟨byte, byte + Text.byteSize each.chars⟩⟩,
        ⟨byte + Text.byteSize each.chars, rest⟩) := by
  have size : Text.byteSize each.chars =
      Text.byteSize (each.sign.map Sign.toChar).toList + Text.byteSize each.body := by
    rw [Piece.chars_eq, Text.byteSize_append]
  have here : (get : Reader Cursor) ⟨byte, each.chars ++ rest⟩ = some (_, _) := rfl
  rw [piece, bind_of_some here, bind_of_some signed, bind_of_some (body_of_clean clean stops), size,
    ← Nat.add_assoc]
  rfl

theorem signed_of_sign {each : Piece} (signed : each.sign ≠ none) :
    (some <$> one Sign.ofChar?) ⟨byte, each.chars ++ rest⟩ = some (each.sign,
      ⟨byte + Text.byteSize (each.sign.map Sign.toChar).toList, each.body ++ rest⟩) := by
  obtain ⟨sign, marked⟩ := Option.ne_none_iff_exists'.mp signed
  rw [Piece.chars_eq, marked]
  exact map_of_some (one_of_some sign.ofChar?_toChar)

theorem optional_of_lead {each : Piece}
    (lead : each.sign = (each.chars ++ rest).head?.bind Sign.ofChar?) :
    optional (one Sign.ofChar?) ⟨byte, each.chars ++ rest⟩ = some (each.sign,
      ⟨byte + Text.byteSize (each.sign.map Sign.toChar).toList, each.body ++ rest⟩) := by
  cases marked : each.sign with
  | some sign =>
    rw [Piece.chars_eq, marked]
    exact optional_of_some (one_of_some sign.ofChar?_toChar)
  | none =>
    rw [marked] at lead
    have unsigned : ∀ c ∈ (each.chars ++ rest).head?, Sign.ofChar? c = none := by
      intro c first
      rw [Option.mem_def.mp first, Option.bind_some] at lead
      exact lead.symm
    rw [optional_of_none (one_of_none unsigned), Piece.chars_eq, marked]
    rfl

theorem head_of_signed {pieces : List Piece} (signed : ∀ each ∈ pieces, each.sign ≠ none) :
    ∀ c ∈ (pieces.flatMap Piece.chars).head?, c ∈ ['+', '-'] := by
  cases pieces with
  | nil => nofun
  | cons each others =>
    obtain ⟨sign, marked⟩ := Option.ne_none_iff_exists'.mp (signed each List.mem_cons_self)
    rw [List.flatMap_cons, Piece.chars_eq, marked]
    rintro c ⟨⟩
    cases sign <;> decide

theorem many_of_signed {pieces : List Piece} (clean : ∀ each ∈ pieces, each.Clean)
    (signed : ∀ each ∈ pieces, each.sign ≠ none) :
    many (piece (some <$> one Sign.ofChar?)) ⟨byte, pieces.flatMap Piece.chars⟩ =
      some (Located.place byte pieces,
        ⟨byte + Text.byteSize (pieces.flatMap Piece.chars), []⟩) := by
  induction pieces generalizing byte with
  | nil =>
    have failed : piece (some <$> one Sign.ofChar?) ⟨byte, []⟩ = none := rfl
    rw [List.flatMap_nil, many, failed]
    rfl
  | cons each others ih =>
    obtain ⟨first, clean⟩ := List.forall_mem_cons.mp clean
    obtain ⟨marked, signed⟩ := List.forall_mem_cons.mp signed
    have written : each.chars ≠ [] := by
      obtain ⟨sign, marked⟩ := Option.ne_none_iff_exists'.mp marked
      rw [Piece.chars_eq, marked]
      exact List.cons_ne_nil _ _
    have shorter := List.length_pos_iff.mpr written
    rw [List.flatMap_cons, many,
      piece_of_clean first (head_of_signed signed) (signed_of_sign marked)]
    simp [ih clean signed, shorter, Located.place, Nat.add_assoc]

/-- The readers find the pieces of every text. -/
theorem read?_eq (start : Nat) (text : List Char) :
    read? start text = some (Located.ofChars start text) := by
  have cut := Piece.cut_ofChars text
  obtain ⟨first, others, found⟩ := List.exists_cons_of_ne_nil cut.ne_nil
  obtain ⟨joined, _, clean, signed, lead⟩ := cut
  rw [found] at joined clean signed lead
  obtain ⟨firstClean, clean⟩ := List.forall_mem_cons.mp clean
  rw [List.flatMap_cons] at joined
  rw [List.tail_cons] at signed
  rw [← joined] at lead
  rw [Located.ofChars, found, read?, ← joined, pieces,
    bind_of_some (piece_of_clean firstClean (head_of_signed signed) (optional_of_lead lead)),
    bind_of_some (many_of_signed clean signed)]
  rfl

end Reader

namespace Expression

/-- Reads an expression by descent; `failed` stands for a text whose pieces cannot be read. -/
def parseByDescent (failed : ParseError) (limits : Limits) (text : String) :
    Except ParseError Expression :=
  if Text.trim text.toList = [] then .error .empty else do
    let start := Text.byteSize (Text.leadingBlanks text.toList)
    let located ← (Reader.read? start (Text.trim text.toList)).elim (.error failed) .ok
    let meanings ← located.mapM (Located.read limits.maxValue)
    ofMeanings limits.maxDice text meanings

/-- By descent the pieces of every text are found, at the places that it is cut into. It can be cut
into no other ones, and no text is rejected for its pieces not being found. -/
theorem pieces_by_descent (text : String) :
    Reader.read? 0 text.toList = some (Located.ofChars 0 text.toList) ∧
    (∀ located, Located.Cut text.toList located ↔ located = Located.ofChars 0 text.toList) ∧
    ∀ failed limits, parseByDescent failed limits text = parseWith limits text := by
  refine ⟨Reader.read?_eq 0 _, fun located => Located.cut_iff, fun failed limits => ?_⟩
  simp only [parseByDescent, Reader.read?_eq]
  rfl

end Expression

end Dice
