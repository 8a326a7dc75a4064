import FilterQuery.Query.Build
import FilterQuery.Query.Factory
import FilterQuery.Query.Scan
import FilterQuery.Query.Tag
import FilterQuery.Query.TagRegistry
import FilterQuery.Schema.Path

/-!
The compiler from query texts to constraints. It reads the text once, from the left, by the
grammar

    any  := all ("or" all)*
    all  := unit (["and" | "&&"] unit)*
    unit := "!" unit | "(" any ")" | tag | comparison | search term

and builds each constraint as soon as its parts are there. Parts that yield no constraint
drop out; a list of one constraint stands for itself.
-/
namespace FilterQuery.Query

/-- What a query is compiled against. -/
structure Setting (Handler : Type := FieldPath) where
  schema : Schema
  /-- The entity field paths start from. -/
  root : Entity
  searchFields : List SearchField
  tags : TagRegistry Handler

/-- An unquoted value of just this text stands for no value. -/
def nullSign : String := "-"

variable {C Handler : Type}

/-- Nothing for no parts, a single part itself, and several parts joined. -/
def combine (join : List C → C) : List C → Build C (Option C)
  | [] => pure none
  | [c] => pure (some c)
  | cs => some <$> .make (join cs)

/-- The value a text stands for. A text that the property's type cannot read is kept as it
is. -/
def convert (r : Resolved) (raw : String) : Build C Value :=
  match r.property.type.read raw with
  | .ok v => pure v
  | .error e => do
    .note (.keptText r.entity.name r.property.name e)
    pure (.string raw)

/-- The value of a comparison. -/
def convertTerm (r : Resolved) (t : Term) : Build C Value :=
  if !t.exact && t.text == nullSign then pure .null else convert r t.text

variable (F : Factory C) (st : Setting Handler)

/-- One comparison of a word for each search field, of which one has to hold. A mode that is
given replaces those of the fields. -/
def searchWord (mode : Option SearchMode) (word : String) : Build C C := do
  let parts ← st.searchFields.mapM fun f => .make (F.search f.field (mode.getD f.mode) word)
  .make (F.any parts)

/-- A search for a quoted phrase, or for every word of a text. -/
def searchTerm (t : Term) : Build C (Option C) :=
  if st.searchFields = [] then do
    .note (.nothingToSearch t.text)
    pure none
  else if t.exact then do
    let phrase ← searchWord F st (some .equal) t.text
    some <$> .make (F.all [phrase])
  else
    match Text.words t.text.toList with
    | [] => pure none
    | words => do
      let parts ← words.mapM fun w => searchWord F st none (String.ofList w)
      some <$> .make (F.all parts)

/-- The equality a tag on `field` stands for, if the field resolves. -/
def tagConstraint (field : FieldPath) (value : String) : Build C (Option C) :=
  match st.schema.resolve? st.root field with
  | none => do
    .note (.unresolvedTagField field.text)
    pure none
  | some r => do
    let v ← convert r value
    some <$> .make (F.eq field v)

/-- The comparison of a field that resolved, at its operator. -/
def compileComparison (field : String) (r : Resolved) (cs : List Char) :
    Build C (Option C × List Char) :=
  match Operator.at? cs with
  | none => .stop field cs
  | some (op, width) => do
    let (value, rest) := takeValue (cs.drop width)
    let v ← convertTerm r value
    let c ← .make (F.compare ⟨field⟩ op v)
    pure (some c, rest)

/-- A term with an operator after it. What names no field is searched, together with the
operator unless blanks stand between. -/
def compileOperation (t : Term) (skipped : Bool) (cs : List Char) :
    Build C (Option C × List Char) :=
  match st.schema.resolve? st.root ⟨t.text⟩ with
  | some r => compileComparison F t.text r cs
  | none => do
    .note (.unknownField t.text)
    let (t, rest) := if skipped then (t, cs) else extendTerm t cs
    let c ← searchTerm F st t
    pure (c, rest)

/-- A comparison or a search term, after characters that start neither. -/
def compileTerm (cs : List Char) : Build C (Option C × List Char) :=
  let cs := skipStray cs
  if atClose cs then pure (none, cs)
  else
    let (t, after) := takeTerm cs
    let rest := Text.skipBlanks after
    let skipped := rest.length < after.length
    let bareMark := !skipped && !t.exact && rest.head? == some '!'
    if atOperator rest || bareMark then compileOperation F st t skipped rest
    else do
      let c ← searchTerm F st t
      pure (c, rest)

theorem convert_returns (r : Resolved) (raw : String) :
    ∃ v, (convert r raw : Build C Value).result = .ok v := by
  rw [convert]
  split
  · exact ⟨_, rfl⟩
  · exact ⟨_, rfl⟩

theorem tagConstraint_returns (field : FieldPath) (value : String) :
    ∃ c, (tagConstraint F st field value).result = .ok c := by
  rw [tagConstraint]
  split
  · exact ⟨none, rfl⟩
  · next r _ =>
    obtain ⟨v, hv⟩ := convert_returns (C := C) r value
    rw [Build.bind_ok hv]
    exact ⟨_, rfl⟩

/-- Types whose values handle tags: `generate` gives the constraint of a value, which may be
missing, with what is built and noted on the way. No handler stops a compilation. -/
class TagHandler (Handler C : Type) where
  generate : Factory C → Setting Handler → Handler → String → Build C (Option C)
  returns : ∀ F st handler value, ∃ c, (generate F st handler value).result = .ok c

/-- A field handles tags by the equality with it. -/
instance : TagHandler FieldPath C where
  generate := tagConstraint
  returns := tagConstraint_returns

variable [TagHandler Handler C]

/-- The constraint of a tag with this payload. -/
def compileTag (payload : List Char) : Build C (Option C) :=
  match Tag.read (String.ofList payload) with
  | ⟨some type, some value⟩ =>
    match st.tags.lookup type with
    | some handler => TagHandler.generate F st handler value
    | none => do
      .note (.unhandledTag type)
      pure none
  | _ => do
    .note (.malformedTag (String.ofList payload))
    pure none

theorem length_lt_of_skipBlanks_eq {c : Char} {cs rest : List Char}
    (h : Text.skipBlanks cs = c :: rest) : rest.length < cs.length := by
  have := Text.skipBlanks_length_le cs
  rw [h, List.length_cons] at this
  exact this

mutual

/-- Alternatives up to the end of their group. -/
def compileAny (cs : List Char) : Build C (Option C × List Char) := do
  let (parts, rest) ← anyParts cs
  let c ← combine F.any parts
  pure (c, rest)
termination_by (cs.length, 4)
decreasing_by exact Prod.Lex.right _ (by decide)

/-- The constraints of the alternatives, in order. Each alternative takes something off the
text; the guard states it for the recursion. -/
def anyParts (cs : List Char) : Build C (List C × List Char) :=
  if atClose cs then pure ([], cs)
  else do
    let (part, rest) ← compileAll cs
    if atOr rest then
      if _shorter : (rest.drop 2).length < cs.length then do
        let (parts, rest) ← anyParts (rest.drop 2)
        pure (part.toList ++ parts, rest)
      else pure (part.toList, rest)
    else pure (part.toList, rest)
termination_by (cs.length, 3)
decreasing_by
  · exact Prod.Lex.right _ (by decide)
  · exact Prod.Lex.left _ _ _shorter

/-- Conjoined units up to the next alternative. -/
def compileAll (cs : List Char) : Build C (Option C × List Char) := do
  let (parts, rest) ← allParts cs
  let c ← combine F.all parts
  pure (c, rest)
termination_by (cs.length, 2)
decreasing_by exact Prod.Lex.right _ (by decide)

/-- The constraints of the units, in order, with the same guard. -/
def allParts (cs : List Char) : Build C (List C × List Char) :=
  if atClose cs then pure ([], cs)
  else do
    let (part, rest) ← compileUnit cs
    let rest := Text.skipBlanks rest
    if atOr rest then pure (part.toList, rest)
    else if _shorter : (skipAnd rest).length < cs.length then do
      let (parts, rest) ← allParts (skipAnd rest)
      pure (part.toList ++ parts, rest)
    else pure (part.toList, rest)
termination_by (cs.length, 1)
decreasing_by
  · exact Prod.Lex.right _ (by decide)
  · exact Prod.Lex.left _ _ _shorter

/-- One unit after blanks. A group may lack its closing bracket, and a negation of nothing is
nothing. -/
def compileUnit (cs : List Char) : Build C (Option C × List Char) :=
  match _split : Text.skipBlanks cs with
  | '!' :: rest => do
    let (c, rest) ← compileUnit rest
    match c with
    | none => pure (none, rest)
    | some c => do
      let c ← .make (F.negate c)
      pure (some c, rest)
  | '(' :: rest => do
    let (c, rest) ← compileAny rest
    pure (c, dropClose rest)
  | '|' :: '|' :: rest => do
    let (payload, rest) := takePayload rest
    let c ← compileTag F st payload
    pure (c, rest)
  | rest => compileTerm F st rest
termination_by (cs.length, 0)
decreasing_by
  · exact Prod.Lex.left _ _ (length_lt_of_skipBlanks_eq _split)
  · exact Prod.Lex.left _ _ (length_lt_of_skipBlanks_eq _split)

end

/-- A finished compilation: what it built and noted, and its constraint, which is missing
where the query asks for nothing. -/
structure Compilation (C : Type) where
  events : List (Event C)
  result : Except CompileError (Option C)

/-- The error of a stop, with its place in the query. -/
def Stop.error (s : Stop) (query : List Char) : CompileError :=
  ⟨s.field, s.unread.head?, query.length - s.unread.length⟩

/-- Compiles a query. A closing bracket that closes nothing ends it. -/
def compile (query : String) : Compilation C :=
  let run := compileAny F st query.toList
  match run.result with
  | .ok (c, _) => ⟨.noted (.compiling query) :: run.events, .ok c⟩
  | .error stop =>
    let e := stop.error query.toList
    ⟨.noted (.compiling query) :: run.events ++ [.noted (.rejected query e)], .error e⟩

namespace Compilation

/-- Every constraint that was built, in order. -/
def built (c : Compilation C) : List C :=
  c.events.filterMap fun
    | .built c => some c
    | .noted _ => none

def notes (c : Compilation C) : List Note :=
  c.events.filterMap fun
    | .built _ => none
    | .noted n => some n

end Compilation
end FilterQuery.Query
