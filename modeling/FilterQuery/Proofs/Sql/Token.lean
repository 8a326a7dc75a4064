import FilterQuery.Proofs.Number.Digits
import FilterQuery.Proofs.Text.Blank
import FilterQuery.Sql.Statement

/-!
Tokens of SQL conditions, and the lexer that cuts a text into them: identifiers between marks,
parameters, comparison operators, keywords, points and parentheses, with blanks between them.
-/
namespace FilterQuery.Sql

inductive Token where
  | identifier (name : String)
  | point
  /-- A placeholder, with its number if it has one. -/
  | parameter (number : Option Nat)
  | operator (op : Operator)
  | like | is | not | null | and | or
  | opening | closing
  deriving DecidableEq

/-- Takes an identifier up to its closing mark. A doubled mark stands for one. -/
def takeIdentifier (mark : Char) : List Char → Option (List Char × List Char)
  | [] => none
  | c :: cs =>
    if c = mark then
      match cs with
      | [] => some ([], [])
      | d :: ds =>
        if d = mark then (takeIdentifier mark ds).map fun (name, rest) => (mark :: name, rest)
        else some ([], d :: ds)
    else (takeIdentifier mark cs).map fun (name, rest) => (c :: name, rest)

/-- Reads the longest run of characters that satisfy `p` as one token. -/
def scanRun (p : Char → Bool) (read : List Char → Option Token) (cs : List Char) :
    Option (Token × List Char) :=
  (read (cs.takeWhile p)).map fun t => (t, cs.dropWhile p)

def isSymbol (c : Char) : Bool := c == '=' || c == '<' || c == '>'

def operatorToken (cs : List Char) : Option Token :=
  ([("=", .equal), ("<>", .notEqual), (">", .greaterThan), (">=", .greaterOrEqual),
    ("<", .lessThan), ("<=", .lessOrEqual)].lookup (String.ofList cs)).map .operator

/-- The word for matching patterns without regard to letter case. -/
def likeWord : Dialect → String
  | .postgres => "ILIKE"
  | .mysql => "LIKE"

def keywordToken (d : Dialect) (cs : List Char) : Option Token :=
  [(likeWord d, Token.like), ("IS", .is), ("NOT", .not), ("NULL", .null), ("AND", .and),
    ("OR", .or)].lookup (String.ofList cs)

/-- The number of a placeholder that is numbered. -/
def numberToken (cs : List Char) : Option Token :=
  (Digits.read? cs).map fun n => .parameter (some n)

/-- Reads one token off a text without blanks in front. -/
def scan (d : Dialect) : List Char → Option (Token × List Char)
  | [] => none
  | c :: cs =>
    if c = d.quoteMark then
      (takeIdentifier d.quoteMark cs).map fun (name, rest) =>
        (.identifier (String.ofList name), rest)
    else if c = '(' then some (.opening, cs)
    else if c = ')' then some (.closing, cs)
    else if c = '.' then some (.point, cs)
    else if d = .postgres ∧ c = '$' then scanRun Char.isDigit numberToken cs
    else if d = .mysql ∧ c = '?' then some (.parameter none, cs)
    else if isSymbol c then scanRun isSymbol operatorToken (c :: cs)
    else scanRun Char.isAlpha (keywordToken d) (c :: cs)

/-- Cuts a text into tokens. Each token takes something off the text; the guard states it for
the recursion. -/
def lex (d : Dialect) (cs : List Char) : Option (List Token) :=
  match scan d (Text.skipBlanks cs) with
  | some (t, rest) =>
    if _shorter : rest.length < (Text.skipBlanks cs).length then (lex d rest).map (t :: ·)
    else none
  | none => if Text.skipBlanks cs = [] then some [] else none
termination_by cs.length
decreasing_by exact Nat.lt_of_lt_of_le _shorter (Text.skipBlanks_length_le cs)

/-- The number in the placeholder of a parameter. -/
def Dialect.number : Dialect → Nat → Option Nat
  | .postgres, index => some (index + 1)
  | .mysql, _ => none

@[simp] theorem lex_nil (d : Dialect) : lex d [] = some [] := by
  rw [lex, Text.skipBlanks_nil, scan]
  rfl

theorem lex_space (d : Dialect) (cs : List Char) : lex d (' ' :: cs) = lex d cs := by
  have hs : Text.skipBlanks (' ' :: cs) = Text.skipBlanks cs := by
    simp [Text.skipBlanks, Text.isBlank]
  rw [lex, lex, hs]

theorem lex_of_scan {d : Dialect} {c : Char} {cs rest : List Char} {t : Token}
    (hb : Text.isBlank c = false) (h : scan d (c :: cs) = some (t, rest))
    (hl : rest.length ≤ cs.length) : lex d (c :: cs) = (lex d rest).map (t :: ·) := by
  rw [lex, Text.skipBlanks_cons hb, h]
  simp [Nat.lt_succ_of_le hl]

theorem takeIdentifier_cons {mark c : Char} (h : c ≠ mark) (cs : List Char) :
    takeIdentifier mark (c :: cs) =
      (takeIdentifier mark cs).map fun (name, rest) => (c :: name, rest) := by
  cases cs <;> simp [takeIdentifier, h]

theorem takeIdentifier_doubled {mark : Char} (name rest : List Char)
    (hr : rest.head? ≠ some mark) :
    takeIdentifier mark
        (name.flatMap (fun c => if c = mark then [c, c] else [c]) ++ mark :: rest) =
      some (name, rest) := by
  induction name with
  | nil =>
    cases rest with
    | nil => simp [takeIdentifier]
    | cons d ds =>
      have hd : d ≠ mark := by simpa using hr
      simp [takeIdentifier, hd]
  | cons c name ih =>
    by_cases hc : c = mark
    · subst hc
      simp [takeIdentifier, ih]
    · simp [takeIdentifier_cons hc, hc, ih]

theorem lex_quote (d : Dialect) (name : String) {rest : List Char}
    (hr : rest.head? ≠ some d.quoteMark) :
    lex d (d.quote name ++ rest) = (lex d rest).map (.identifier name :: ·) := by
  have hb : Text.isBlank d.quoteMark = false := by cases d <;> rfl
  have ht := takeIdentifier_doubled name.toList rest hr
  have hq : d.quote name ++ rest = d.quoteMark ::
      (name.toList.flatMap (fun c => if c = d.quoteMark then [c, c] else [c]) ++
        d.quoteMark :: rest) := by
    simp [Dialect.quote]
  rw [hq]
  refine lex_of_scan hb ?_ ?_
  · rw [scan, if_pos rfl, ht]
    simp
  · rw [List.length_append, List.length_cons]
    omega

theorem lex_opening (d : Dialect) (cs : List Char) :
    lex d ('(' :: cs) = (lex d cs).map (.opening :: ·) := by
  refine lex_of_scan rfl ?_ (Nat.le_refl _)
  cases d <;> rfl

theorem lex_closing (d : Dialect) (cs : List Char) :
    lex d (')' :: cs) = (lex d cs).map (.closing :: ·) := by
  refine lex_of_scan rfl ?_ (Nat.le_refl _)
  cases d <;> rfl

theorem lex_point (d : Dialect) (cs : List Char) :
    lex d ('.' :: cs) = (lex d cs).map (.point :: ·) := by
  refine lex_of_scan rfl ?_ (Nat.le_refl _)
  cases d <;> rfl

/-- A run of characters is one token if the text after it cannot extend it. -/
theorem scanRun_append {p : Char → Bool} {read : List Char → Option Token} {w rest : List Char}
    {t : Token} (hw : ∀ c ∈ w, p c = true) (hr : ∀ c ∈ rest.head?, p c = false)
    (ht : read w = some t) : scanRun p read (w ++ rest) = some (t, rest) := by
  have htake : rest.takeWhile p = [] ∧ rest.dropWhile p = rest := by
    cases rest with
    | nil => simp
    | cons c rest => simp [hr c rfl]
  rw [scanRun, List.takeWhile_append_of_pos hw, List.dropWhile_append_of_pos hw, htake.1, htake.2,
    List.append_nil, ht]
  rfl

/-- What stands after a condition: nothing, a space or a closing parenthesis. -/
def Ends (rest : List Char) : Prop := ∀ c ∈ rest.head?, c = ' ' ∨ c = ')'

theorem Ends.eq_false {rest : List Char} (h : Ends rest) {p : Char → Bool}
    (hs : p ' ' = false) (hc : p ')' = false) : ∀ c ∈ rest.head?, p c = false := by
  intro c hm
  rcases h c hm with rfl | rfl
  · exact hs
  · exact hc

theorem ends_nil : Ends [] := by simp [Ends]

theorem ends_space (cs : List Char) : Ends (' ' :: cs) := by simp [Ends]

theorem ends_closing (cs : List Char) : Ends (')' :: cs) := by simp [Ends]

theorem lex_placeholder (d : Dialect) (index : Nat) {rest : List Char} (hr : Ends rest) :
    lex d (d.placeholder index ++ rest) =
      (lex d rest).map (.parameter (d.number index) :: ·) := by
  cases d with
  | postgres =>
    refine lex_of_scan rfl ?_ (by simp)
    have hn : numberToken (Digits.write (index + 1)) = some (.parameter (some (index + 1))) := by
      rw [numberToken, Digits.read?_write]
      rfl
    have hs := scanRun_append (p := Char.isDigit) (fun c hc => Digits.isDigit_of_mem_write hc)
      (hr.eq_false rfl rfl) hn
    simpa [scan, Dialect.quoteMark, Dialect.number] using hs
  | mysql =>
    refine lex_of_scan rfl ?_ (Nat.le_refl _)
    rfl

theorem lex_word (d : Dialect) {w rest : List Char} {t : Token} (hne : w ≠ [])
    (hw : ∀ c ∈ w, c.isAlpha = true) (ht : keywordToken d w = some t)
    (hr : ∀ c ∈ rest.head?, c.isAlpha = false) :
    lex d (w ++ rest) = (lex d rest).map (t :: ·) := by
  have hs := scanRun_append hw hr ht
  obtain ⟨c, w, rfl⟩ := List.exists_cons_of_ne_nil hne
  have hc := hw c List.mem_cons_self
  have hne {e : Char} (he : e.isAlpha = false) : c ≠ e := by
    rintro rfl
    rw [hc] at he
    cases he
  have hq : c ≠ d.quoteMark := by cases d <;> exact hne rfl
  refine lex_of_scan (Text.isBlank_of_isAlpha hc) ?_ (by simp)
  have h₁ : c ≠ '(' := hne rfl
  have h₂ : c ≠ ')' := hne rfl
  have h₃ : c ≠ '.' := hne rfl
  have h₄ : c ≠ '$' := hne rfl
  have h₅ : c ≠ '?' := hne rfl
  have h₆ : isSymbol c = false := by
    have h₆ : c ≠ '=' := hne rfl
    have h₇ : c ≠ '<' := hne rfl
    have h₈ : c ≠ '>' := hne rfl
    simp [isSymbol, h₆, h₇, h₈]
  simpa [scan, hq, h₁, h₂, h₃, h₄, h₅, h₆] using hs

theorem scan_of_isSymbol {d : Dialect} {c : Char} (h : isSymbol c = true) (cs : List Char) :
    scan d (c :: cs) = scanRun isSymbol operatorToken (c :: cs) ∧ Text.isBlank c = false := by
  have hc : (c = '=' ∨ c = '<') ∨ c = '>' := by simpa [isSymbol] using h
  rcases hc with (rfl | rfl) | rfl <;> cases d <;> exact ⟨rfl, rfl⟩

theorem lex_operator (d : Dialect) (op : Operator) {rest : List Char} (hr : Ends rest) :
    lex d (op.symbol.toList ++ rest) = (lex d rest).map (.operator op :: ·) := by
  have hw : ∀ c ∈ op.symbol.toList, isSymbol c = true := by
    cases op <;> simp [Operator.symbol, isSymbol]
  have ht : operatorToken op.symbol.toList = some (.operator op) := by
    cases op <;> rfl
  have hs := scanRun_append hw (hr.eq_false rfl rfl) ht
  obtain ⟨c, w, he⟩ : ∃ c w, op.symbol.toList = c :: w := by
    cases op <;> exact ⟨_, _, rfl⟩
  rw [he] at hw hs ⊢
  obtain ⟨hsc, hb⟩ := scan_of_isSymbol (d := d) (hw c List.mem_cons_self) (w ++ rest)
  exact lex_of_scan hb (hsc.trans hs) (by simp)

/-- The text is cut into these tokens, whatever stands after it. -/
def Lexes (d : Dialect) (text : List Char) (ts : List Token) : Prop :=
  ∀ rest, Ends rest → lex d (text ++ rest) = (lex d rest).map (ts ++ ·)

theorem Lexes.append {d : Dialect} {a b : List Char} {ts us : List Token} (ha : Lexes d a ts)
    (hb : Lexes d (' ' :: b) us) : Lexes d (a ++ ' ' :: b) (ts ++ us) := by
  intro rest hr
  have hab := ha (' ' :: (b ++ rest)) (ends_space _)
  have hbr := hb rest hr
  rw [List.cons_append] at hbr
  rw [List.append_assoc, List.cons_append, hab, hbr, Option.map_map]
  congr 1
  funext vs
  simp

theorem lexes_placeholder (d : Dialect) (index : Nat) :
    Lexes d (d.placeholder index) [.parameter (d.number index)] :=
  fun _ hr => lex_placeholder d index hr

/-- The tokens of a column. -/
def Column.tokens (c : Column) : List Token :=
  match c.qualifier with
  | none => [.identifier c.name]
  | some q => [.identifier q, .point, .identifier c.name]

theorem Ends.head?_ne {rest : List Char} (h : Ends rest) (d : Dialect) :
    rest.head? ≠ some d.quoteMark := by
  intro he
  rcases h d.quoteMark he with hm | hm <;> cases d <;> cases hm

theorem lexes_column (d : Dialect) (c : Column) : Lexes d (c.write d) c.tokens := by
  intro rest hr
  have hn := lex_quote d c.name (hr.head?_ne d)
  rw [Column.write, Column.tokens]
  cases c.qualifier with
  | none => exact hn
  | some q =>
    have hp : (('.' :: (d.quote c.name ++ rest)).head?) ≠ some d.quoteMark := by
      cases d <;> simp [Dialect.quoteMark]
    simp only [List.append_assoc, List.cons_append]
    rw [lex_quote d q hp, lex_point, hn, Option.map_map, Option.map_map]
    rfl

theorem Lexes.space {d : Dialect} {text : List Char} {ts : List Token} (h : Lexes d text ts) :
    Lexes d (' ' :: text) ts := by
  intro rest hr
  rw [List.cons_append, lex_space, h rest hr]

theorem lexes_word (d : Dialect) {w : List Char} {t : Token} (hne : w ≠ [])
    (hw : ∀ c ∈ w, c.isAlpha = true) (ht : keywordToken d w = some t) : Lexes d w [t] :=
  fun _ hr => lex_word d hne hw ht (hr.eq_false rfl rfl)

/-- A keyword in front of a text. -/
theorem Lexes.keyword {d : Dialect} {text : List Char} {ts : List Token} {w : String} {t : Token}
    (ht : keywordToken d w.toList = some t) (hw : ∀ c ∈ w.toList, c.isAlpha = true)
    (hne : w.toList ≠ []) (h : Lexes d text ts) :
    Lexes d (w.toList ++ ' ' :: text) (t :: ts) :=
  (lexes_word d hne hw ht).append h.space

theorem Lexes.and {d : Dialect} {text : List Char} {ts : List Token} (h : Lexes d text ts) :
    Lexes d (" AND ".toList ++ text) (.and :: ts) :=
  (h.keyword (w := "AND") (by cases d <;> rfl) (by simp) (by simp)).space

theorem Lexes.or {d : Dialect} {text : List Char} {ts : List Token} (h : Lexes d text ts) :
    Lexes d (" OR ".toList ++ text) (.or :: ts) :=
  (h.keyword (w := "OR") (by cases d <;> rfl) (by simp) (by simp)).space

theorem Lexes.not {d : Dialect} {text : List Char} {ts : List Token} (h : Lexes d text ts) :
    Lexes d ("NOT ".toList ++ text) (.not :: ts) :=
  h.keyword (w := "NOT") (by cases d <;> rfl) (by simp) (by simp)

theorem Lexes.like {d : Dialect} {text : List Char} {ts : List Token} (h : Lexes d text ts) :
    Lexes d (' ' :: (d.likeOperator.toList ++ ' ' :: text)) (.like :: ts) :=
  (h.keyword (by cases d <;> rfl) (by cases d <;> simp [Dialect.likeOperator])
    (by cases d <;> simp [Dialect.likeOperator])).space

/-- The tokens of a null test, after the operand. -/
def nullTokens (negated : Bool) : List Token := if negated then [.is, .not, .null] else [.is, .null]

theorem lexes_null (d : Dialect) (negated : Bool) :
    Lexes d (if negated then " IS NOT NULL" else " IS NULL").toList (nullTokens negated) := by
  have h : Lexes d "NULL".toList [.null] :=
    lexes_word d (by simp) (by simp) (by cases d <;> rfl)
  cases negated with
  | false => exact (h.keyword (w := "IS") (by cases d <;> rfl) (by simp) (by simp)).space
  | true => exact (h.not.keyword (w := "IS") (by cases d <;> rfl) (by simp) (by simp)).space

theorem lexes_operator (d : Dialect) (op : Operator) :
    Lexes d op.symbol.toList [.operator op] :=
  fun _ hr => lex_operator d op hr

/-- A text between parentheses. -/
theorem Lexes.parenthesized {d : Dialect} {text : List Char} {ts : List Token}
    (h : Lexes d text ts) : Lexes d ('(' :: (text ++ [')'])) (.opening :: (ts ++ [.closing])) := by
  intro rest _
  rw [List.cons_append, List.append_assoc, List.singleton_append, lex_opening,
    h _ (ends_closing rest), lex_closing, Option.map_map, Option.map_map]
  congr 1
  funext vs
  simp

end FilterQuery.Sql
