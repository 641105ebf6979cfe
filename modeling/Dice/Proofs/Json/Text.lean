import Dice.Proofs.Json.Reader

namespace Dice.Json

theorem hexDigit?_digitChar : ∀ digit < 16, hexDigit? (Nat.digitChar digit) = some digit := by
  decide

private theorem character?_escapeCode {c : Char} (control : c.toNat < 0x20) (rest : List Char) :
    character? (escapeCode c ++ rest) = some (c, rest) := by
  have zero : hexDigit? '0' = some 0 := rfl
  have high := hexDigit?_digitChar (c.toNat / 16) (by omega)
  have low := hexDigit?_digitChar (c.toNat % 16) (by omega)
  have whole : c.toNat / 16 * 16 + c.toNat % 16 = c.toNat := by omega
  have unit : unit? ('0' :: '0' :: Nat.digitChar (c.toNat / 16) ::
      Nat.digitChar (c.toNat % 16) :: rest) = some (c.toNat, rest) := by
    simp [unit?, zero, high, low, whole]
  have decoded : decoded? c.toNat rest = some (c, rest) := by
    rw [decoded?, if_pos (.inl (by omega)), Char.ofNat_toNat]
  simp [escapeCode, character?, escaped?, unit, decoded]

/-- What is written for a character in a string is read as this character. -/
theorem character?_escape (c : Char) (rest : List Char) :
    character? (escape c ++ rest) = some (c, rest) := by
  unfold escape
  split_ifs with quote backslash backspace tab newline feed carriage control
  · cases quote
    rfl
  · cases backslash
    rfl
  · cases backspace
    rfl
  · cases tab
    rfl
  · cases newline
    rfl
  · cases feed
    rfl
  · cases carriage
    rfl
  · exact character?_escapeCode control rest
  · simp [character?, backslash, quote, control]

theorem string?_of_character {c : Char} {text rest : List Char}
    (read : character? text = some (c, rest)) :
    string? text = (string? rest).map fun found => (c :: found.1, found.2) := by
  rw [string?]
  split
  · rename_i first
    cases first.symm.trans read
    rfl
  · rename_i none
    cases none.symm.trans read

theorem string?_escape (chars rest : List Char) :
    string? (chars.flatMap escape ++ '"' :: rest) = some (chars, rest) := by
  induction chars with
  | nil =>
    rw [string?]
    rfl
  | cons c chars ih =>
    rw [List.flatMap_cons, List.append_assoc, string?_of_character (character?_escape c _), ih]
    rfl

/-- A rest that no number in front of it runs into. -/
def Delimited (rest : List Char) : Prop :=
  ∀ c ∈ rest.head?, c.isDigit = false

theorem natural?_ofNat (value : Nat) {rest : List Char} (delimited : Delimited rest) :
    natural? (Decimal.ofNat value ++ rest) = some (value, rest) := by
  have digits : ∀ c ∈ Decimal.ofNat value, c.isDigit = true :=
    fun _ => Decimal.isDigit_of_mem_ofNat
  have none : rest.takeWhile Char.isDigit = [] := by
    cases rest with
    | nil => rfl
    | cons c rest => rw [List.takeWhile_cons, delimited c rfl]; rfl
  have all : rest.dropWhile Char.isDigit = rest := by
    cases rest with
    | nil => rfl
    | cons c rest => rw [List.dropWhile_cons, delimited c rfl]; rfl
  rw [natural?, List.takeWhile_append_of_pos digits, List.dropWhile_append_of_pos digits, none, all,
    List.append_nil, Decimal.value_ofNat]
  exact if_pos rfl

private theorem exists_digit (value : Nat) :
    ∃ first digits, Decimal.ofNat value = first :: digits ∧ first.isDigit = true := by
  obtain ⟨first, digits, split⟩ := List.exists_cons_of_ne_nil (Decimal.ofNat_ne_nil value)
  exact ⟨first, digits, split, Decimal.isDigit_of_mem_ofNat (split ▸ List.mem_cons_self)⟩

theorem integer?_ofInt (value : Int) {rest : List Char} (delimited : Delimited rest) :
    integer? (Decimal.ofInt value ++ rest) = some (value, rest) := by
  have found := natural?_ofNat value.natAbs delimited
  unfold Decimal.ofInt
  split
  · change (natural? (Decimal.ofNat value.natAbs ++ rest)).map _ = _
    rw [found, Option.map_some]
    congr 2
    omega
  · obtain ⟨first, digits, split, digit⟩ := exists_digit value.natAbs
    rw [split, List.cons_append] at found ⊢
    have unsigned : first ≠ '-' := by
      rintro rfl
      cases digit
    rw [integer?, found, Option.map_some]
    · congr 2
      omega
    · intro text same
      exact absurd (List.cons.inj same).1 unsigned

theorem tokens?_of_token {token : Token} {text rest : List Char}
    (read : token? text = some (token, rest)) :
    tokens? text = (tokens? rest).bind (put? token) := by
  rw [tokens?]
  split
  · rename_i first
    cases first.symm.trans read
    rfl
  · rename_i none
    cases none.symm.trans read

private theorem tokens?_of_value {json : Json} {text rest : List Char}
    (read : token? text = some (.whole json, rest)) :
    tokens? text = (tokens? rest).map (.whole json :: ·) := by
  rw [tokens?_of_token read, Option.map_eq_bind]
  rfl

/-- A number begins with a character that means nothing else. -/
private theorem exists_numeral (value : Int) :
    ∃ first digits, Decimal.ofInt value = first :: digits ∧ first ∉ marks ∧ first ≠ '"' := by
  obtain ⟨first, digits, split, digit⟩ := exists_digit value.natAbs
  unfold Decimal.ofInt
  split
  · exact ⟨'-', _, rfl, by decide, by decide⟩
  · refine ⟨first, digits, split, fun mark => ?_, fun quote => ?_⟩
    · have none : (marks.all fun c => !c.isDigit) = true := rfl
      have other := List.all_eq_true.mp none first mark
      rw [digit] at other
      cases other
    · cases quote
      cases digit

theorem tokens?_ofInt (value : Int) {rest : List Char} (delimited : Delimited rest) :
    tokens? (Decimal.ofInt value ++ rest) = (tokens? rest).map (.whole (.number value) :: ·) := by
  have read := integer?_ofInt value delimited
  obtain ⟨first, digits, split, mark, quote⟩ := exists_numeral value
  apply tokens?_of_value
  rw [split, List.cons_append] at read ⊢
  rw [token?, if_neg mark, if_neg quote, read]
  rfl

theorem tokens?_quote (text rest : List Char) :
    tokens? (quote text ++ rest) = (tokens? rest).map (.whole (.string text) :: ·) := by
  have split : quote text ++ rest = '"' :: (text.flatMap escape ++ '"' :: rest) := by
    simp [quote]
  apply tokens?_of_value
  rw [split, token?, if_neg (by decide), if_pos rfl, string?_escape]
  rfl

theorem tokens?_mark {c : Char} (mark : c ∈ marks) (rest : List Char) :
    tokens? (c :: rest) = (tokens? rest).bind (put? (.mark c)) :=
  tokens?_of_token (if_pos mark)

private theorem tokens?_between {c : Char} (between : c ∈ [']', '}', ',', ':'])
    (rest : List Char) : tokens? (c :: rest) = (tokens? rest).map (.mark c :: ·) := by
  simp only [List.mem_cons, List.not_mem_nil, or_false] at between
  rcases between with rfl | rfl | rfl | rfl <;>
    rw [tokens?_mark (by decide), Option.map_eq_bind] <;> rfl

def itemTokens : List Json → List Token
  | [] => [.mark ']']
  | [last] => [.whole last, .mark ']']
  | item :: others => .whole item :: .mark ',' :: itemTokens others

def fieldTokens : List (List Char × Json) → List Token
  | [] => [.mark '}']
  | [(name, last)] => [.whole (.string name), .mark ':', .whole last, .mark '}']
  | (name, value) :: others =>
    .whole (.string name) :: .mark ':' :: .whole value :: .mark ',' :: fieldTokens others

theorem items?_itemTokens {items : List Json} (some : items ≠ []) (rest : List Token) :
    items? (itemTokens items ++ rest) = .some (items, rest) := by
  fun_induction itemTokens items with
  | case1 => exact absurd rfl some
  | case2 last => rfl
  | case3 item others more ih =>
    rw [List.cons_append, List.cons_append, items?, ih more]
    rfl

theorem fields?_fieldTokens {fields : List (List Char × Json)} (some : fields ≠ [])
    (rest : List Token) : fields? (fieldTokens fields ++ rest) = .some (fields, rest) := by
  fun_induction fieldTokens fields with
  | case1 => exact absurd rfl some
  | case2 name last => rfl
  | case3 name value others more ih =>
    simp only [List.cons_append]
    rw [fields?, ih more]
    rfl

theorem put?_itemTokens (items : List Json) (rest : List Token) :
    put? (.mark '[') (itemTokens items ++ rest) = some (.whole (.array items) :: rest) := by
  match items with
  | [] => rfl
  | [last] => rfl
  | item :: next :: others =>
    change (items? (itemTokens (item :: next :: others) ++ rest)).map _ = _
    rw [items?_itemTokens (List.cons_ne_nil _ _)]
    rfl

theorem put?_fieldTokens (fields : List (List Char × Json)) (rest : List Token) :
    put? (.mark '{') (fieldTokens fields ++ rest) = some (.whole (.object fields) :: rest) := by
  match fields with
  | [] => rfl
  | [last] => rfl
  | field :: next :: others =>
    change (fields? (fieldTokens (field :: next :: others) ++ rest)).map _ = _
    rw [fields?_fieldTokens (List.cons_ne_nil _ _)]
    rfl

theorem delimited_cons {c : Char} (other : c.isDigit = false) (rest : List Char) :
    Delimited (c :: rest) := by
  intro first same
  cases same
  exact other

-- The induction is on the value and leaves what follows open: an item is read with the text of all
-- later items behind it.
mutual

/-- The text of a value is read as this value, whatever follows it. -/
theorem tokens?_chars (json : Json) {rest : List Char} (delimited : Delimited rest) :
    tokens? (chars json ++ rest) = (tokens? rest).map (.whole json :: ·) := by
  match json with
  | number value => exact tokens?_ofInt value delimited
  | string text => exact tokens?_quote text rest
  | array items =>
    rw [chars, List.cons_append, tokens?_mark (by decide), tokens?_itemChars items rest,
      Option.bind_map, Option.map_eq_bind]
    congr 1
    funext tokens
    exact put?_itemTokens items tokens
  | object fields =>
    rw [chars, List.cons_append, tokens?_mark (by decide), tokens?_fieldChars fields rest,
      Option.bind_map, Option.map_eq_bind]
    congr 1
    funext tokens
    exact put?_fieldTokens fields tokens

theorem tokens?_itemChars (items : List Json) (rest : List Char) :
    tokens? (itemChars items ++ rest) = (tokens? rest).map (itemTokens items ++ ·) := by
  match items with
  | [] => exact tokens?_between (by decide) rest
  | [last] =>
    rw [itemChars, List.append_assoc, List.singleton_append,
      tokens?_chars last (delimited_cons rfl rest), tokens?_between (by decide), Option.map_map]
    rfl
  | item :: next :: others =>
    rw [itemChars, List.append_assoc, List.cons_append,
      tokens?_chars item (delimited_cons rfl _), tokens?_between (by decide),
      tokens?_itemChars (next :: others) rest, Option.map_map, Option.map_map]
    · rfl
    · exact List.cons_ne_nil _ _

theorem tokens?_fieldChars (fields : List (List Char × Json)) (rest : List Char) :
    tokens? (fieldChars fields ++ rest) = (tokens? rest).map (fieldTokens fields ++ ·) := by
  match fields with
  | [] => exact tokens?_between (by decide) rest
  | [(name, last)] =>
    rw [fieldChars, List.append_assoc, List.append_assoc, List.cons_append, List.singleton_append,
      tokens?_quote, tokens?_between (by decide), tokens?_chars last (delimited_cons rfl rest),
      tokens?_between (by decide), Option.map_map, Option.map_map, Option.map_map]
    rfl
  | (name, value) :: next :: others =>
    rw [fieldChars, List.append_assoc, List.append_assoc, List.cons_append, List.cons_append,
      tokens?_quote, tokens?_between (by decide), tokens?_chars value (delimited_cons rfl _),
      tokens?_between (by decide), tokens?_fieldChars (next :: others) rest, Option.map_map,
      Option.map_map, Option.map_map, Option.map_map]
    · rfl
    · exact List.cons_ne_nil _ _

end

theorem read?_text (json : Json) : read? json.text.toList = some json := by
  have nothing : Delimited [] := fun c member => nomatch member
  have ends : tokens? [] = some [] := by
    rw [tokens?]
    rfl
  have tokens := tokens?_chars json nothing
  rw [List.append_nil, ends] at tokens
  rw [text, String.toList_ofList, read?, tokens]
  rfl

theorem text_inj {first second : Json} : first.text = second.text ↔ first = second := by
  refine ⟨fun same => ?_, congrArg text⟩
  have read := congrArg (fun text => read? text.toList) same
  simpa only [read?_text, Option.some.injEq] using read

/-- No control character of ASCII. -/
def Printable (text : List Char) : Prop :=
  ∀ c ∈ text, 0x20 ≤ c.toNat

instance (text : List Char) : Decidable (Printable text) :=
  List.decidableBAll _ text

@[simp]
theorem printable_nil : Printable [] :=
  List.forall_mem_nil _

@[simp]
theorem printable_cons {c : Char} {rest : List Char} :
    Printable (c :: rest) ↔ 0x20 ≤ c.toNat ∧ Printable rest :=
  List.forall_mem_cons

@[simp]
theorem printable_append {first second : List Char} :
    Printable (first ++ second) ↔ Printable first ∧ Printable second :=
  List.forall_mem_append

@[simp]
theorem printable_ofNat (value : Nat) : Printable (Decimal.ofNat value) := by
  intro c member
  have digit := (Char.isDigit_iff_toNat.mp (Decimal.isDigit_of_mem_ofNat member)).1
  exact Nat.le_trans (by decide) digit

@[simp]
theorem printable_ofInt (value : Int) : Printable (Decimal.ofInt value) := by
  unfold Decimal.ofInt
  split <;> simp

private theorem printable_escape (c : Char) : Printable (escape c) := by
  unfold escape
  split_ifs with quote backslash backspace tab newline feed carriage control
  · simp
  · simp
  · simp
  · simp
  · simp
  · simp
  · simp
  · have digits : ∀ digit < 16, 0x20 ≤ (Nat.digitChar digit).toNat := by decide
    simp [escapeCode, digits (c.toNat / 16) (by omega), digits (c.toNat % 16) (by omega)]
  · simpa using Nat.not_lt.mp control

@[simp]
theorem printable_quote (text : List Char) : Printable (quote text) := by
  have escaped : Printable (text.flatMap escape) := by
    intro c member
    obtain ⟨source, _, written⟩ := List.mem_flatMap.mp member
    exact printable_escape source c written
  simp [quote, escaped]

mutual

theorem printable_chars (json : Json) : Printable (chars json) := by
  match json with
  | number value => exact printable_ofInt value
  | string text => exact printable_quote text
  | array items => simpa [chars] using printable_itemChars items
  | object fields => simpa [chars] using printable_fieldChars fields

theorem printable_itemChars (items : List Json) : Printable (itemChars items) := by
  match items with
  | [] => simp [itemChars]
  | [last] => simpa [itemChars] using printable_chars last
  | item :: next :: others =>
    simpa [itemChars] using ⟨printable_chars item, printable_itemChars (next :: others)⟩

theorem printable_fieldChars (fields : List (List Char × Json)) :
    Printable (fieldChars fields) := by
  match fields with
  | [] => simp [fieldChars]
  | [(name, last)] => simpa [fieldChars] using printable_chars last
  | (name, value) :: next :: others =>
    simpa [fieldChars] using ⟨printable_chars value, printable_fieldChars (next :: others)⟩

end

end Dice.Json
