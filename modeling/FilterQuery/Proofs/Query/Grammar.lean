import FilterQuery.Proofs.Query.Leaf

/-!
The grammar of queries: trees of alternatives, conjuncts and items, the texts that spell them,
and the constraint each tree stands for. A tree may be spelled in many ways: blanks are free
in number, keywords in case, and characters may be escaped that need not be.
-/
namespace FilterQuery.Query

/-- What a field is compared with: the value of a text, or no value. -/
inductive Operand where
  | text (s : String)
  | missing
  deriving DecidableEq

mutual

/-- A query: one or more conjunctions, of which one has to hold. -/
inductive Alternatives where
  | one (c : Conjuncts)
  | more (c : Conjuncts) (q : Alternatives)

/-- One or more items that have to hold together. -/
inductive Conjuncts where
  | one (u : Item)
  | more (u : Item) (c : Conjuncts)

inductive Item where
  | negation (u : Item)
  | group (q : Alternatives)
  | tag (type value : String)
  | comparison (field : String) (op : Operator) (operand : Operand)
  | phrase (text : String)
  | word (text : String)

end

/-- The characters that need no backslash outside quotes. -/
def isBare (c : Char) : Bool := c.isAlphanum || c == '_' || c == '.'

/-- A text with backslashes before some of its characters, among them all that are not bare. -/
inductive Escaped : List Char → List Char → Prop where
  | nil : Escaped [] []
  | bare {c : Char} {s t : List Char} (hc : isBare c = true) (h : Escaped s t) :
      Escaped (c :: s) (c :: t)
  | marked {c : Char} {s t : List Char} (h : Escaped s t) : Escaped (c :: s) ('\\' :: c :: t)

/-- A spelling outside quotes. It may not be a keyword. -/
structure Plain (s : String) (t : List Char) : Prop where
  escaped : Escaped s.toList t
  ne_nil : t ≠ []
  ne_or : t.map Char.toLower ≠ "or".toList
  ne_and : t.map Char.toLower ≠ "and".toList

/-- A text inside quotes, where only quotes and backslashes are escaped. -/
def quotedBody (s : List Char) : List Char :=
  s.flatMap fun c => if c = '"' ∨ c = '\\' then ['\\', c] else [c]

def quotedText (s : String) : List Char := '"' :: (quotedBody s.toList ++ ['"'])

/-- A run of blanks, which may be empty. -/
def Blanks (b : List Char) : Prop := ∀ c ∈ b, Text.isBlank c = true

/-- A run of at least one blank. -/
def Gap (b : List Char) : Prop := b ≠ [] ∧ Blanks b

/-- Spellings of an operator. -/
def operatorTexts : Operator → List String
  | .equal => ["=", ":"]
  | .notEqual => ["!=", "<>"]
  | .greaterThan => [">"]
  | .greaterOrEqual => [">="]
  | .lessThan => ["<"]
  | .lessOrEqual => ["<="]

inductive FieldSpelling (field : String) : List Char → Prop where
  | quoted : FieldSpelling field (quotedText field)
  | plain {t : List Char} (h : Plain field t) : FieldSpelling field t

/-- A lone minus sign outside quotes is no text. -/
inductive OperandSpelling : Operand → List Char → Prop where
  | quoted (s : String) : OperandSpelling (.text s) (quotedText s)
  | plain {s : String} {t : List Char} (h : Plain s t) (hs : s ≠ "-") :
      OperandSpelling (.text s) t
  | missing : OperandSpelling .missing ['-']

/-- A part of a tag: it holds no bar and not only blanks. -/
def TagPart (s : String) : Prop := '|' ∉ s.toList ∧ ∃ c ∈ s.toList, Text.isBlank c = false

/-- What stands between two items of a conjunction. -/
inductive Joint : List Char → Prop where
  | blanks {b : List Char} (h : Gap b) : Joint b
  | word {b k b' : List Char} (h : Gap b) (hk : k.map Char.toLower = "and".toList) (h' : Gap b') :
      Joint (b ++ (k ++ b'))
  | ampersands {b b' : List Char} (h : Gap b) (h' : Gap b') : Joint (b ++ ("&&".toList ++ b'))

mutual

inductive SpellsAlternatives : Alternatives → List Char → Prop where
  | one {c : Conjuncts} {t : List Char} (h : SpellsConjuncts c t) :
      SpellsAlternatives (.one c) t
  | more {c : Conjuncts} {q : Alternatives} {t b k b' t' : List Char} (hc : SpellsConjuncts c t)
      (hb : Gap b) (hk : k.map Char.toLower = "or".toList) (hb' : Gap b')
      (hq : SpellsAlternatives q t') :
      SpellsAlternatives (.more c q) (t ++ (b ++ (k ++ (b' ++ t'))))

inductive SpellsConjuncts : Conjuncts → List Char → Prop where
  | one {u : Item} {t : List Char} (h : SpellsItem u t) : SpellsConjuncts (.one u) t
  | more {u : Item} {c : Conjuncts} {t j t' : List Char} (hu : SpellsItem u t) (hj : Joint j)
      (hc : SpellsConjuncts c t') : SpellsConjuncts (.more u c) (t ++ (j ++ t'))

inductive SpellsItem : Item → List Char → Prop where
  | negation {u : Item} {t : List Char} (h : SpellsItem u t) :
      SpellsItem (.negation u) ('!' :: t)
  | group {q : Alternatives} {t : List Char} (h : SpellsAlternatives q t) :
      SpellsItem (.group q) ('(' :: (t ++ [')']))
  | tag {type value : String} (ht : TagPart type) (hc : ':' ∉ type.toList)
      (hv : TagPart value) :
      SpellsItem (.tag type value)
        ('|' :: '|' :: (type.toList ++ ':' :: (value.toList ++ ['|', '|'])))
  | comparison {field : String} {op : Operator} {operand : Operand} {t b b' t' : List Char}
      {o : String} (hf : FieldSpelling field t) (hb : Blanks b) (ho : o ∈ operatorTexts op)
      (hb' : Blanks b') (hv : OperandSpelling operand t') :
      SpellsItem (.comparison field op operand) (t ++ (b ++ (o.toList ++ (b' ++ t'))))
  | phrase (s : String) : SpellsItem (.phrase s) (quotedText s)
  | word {s : String} {t : List Char} (h : Plain s t) : SpellsItem (.word s) t

end

def Operand.value (r : Resolved) : Operand → Value
  | .text s => converted r s
  | .missing => .null

section Meaning

variable {C : Type} (F : Factory C) (st : Setting)

mutual

/-- The constraints of the conjunctions that have one. -/
def Alternatives.parts : Alternatives → List C
  | .one c => (joined F.all (Conjuncts.parts c)).toList
  | .more c q => (joined F.all (Conjuncts.parts c)).toList ++ Alternatives.parts q

/-- The constraints of the items that have one. -/
def Conjuncts.parts : Conjuncts → List C
  | .one u => (Item.meaning u).toList
  | .more u c => (Item.meaning u).toList ++ Conjuncts.parts c

/-- The constraint of an item. A negation of nothing is nothing. -/
def Item.meaning : Item → Option C
  | .negation u => (Item.meaning u).map F.negate
  | .group q => joined F.any (Alternatives.parts q)
  | .tag type value => tagEquality F st ⟨some (Text.trim type), some (Text.trim value)⟩
  | .comparison field op operand =>
    (st.schema.resolve? st.root ⟨field⟩).map fun r => F.compare ⟨field⟩ op (operand.value r)
  | .phrase s => phraseBlock F st s
  | .word s => wordsBlock F st s

end

def Alternatives.meaning (q : Alternatives) : Option C := joined F.any (q.parts F st)

mutual

/-- Every compared field resolves. -/
def Alternatives.Resolves : Alternatives → Prop
  | .one c => Conjuncts.Resolves c
  | .more c q => Conjuncts.Resolves c ∧ Alternatives.Resolves q

def Conjuncts.Resolves : Conjuncts → Prop
  | .one u => Item.Resolves u
  | .more u c => Item.Resolves u ∧ Conjuncts.Resolves c

def Item.Resolves : Item → Prop
  | .negation u => Item.Resolves u
  | .group q => Alternatives.Resolves q
  | .comparison field _ _ => (st.schema.resolve? st.root ⟨field⟩).isSome
  | .tag _ _ => True
  | .phrase _ => True
  | .word _ => True

end

end Meaning

end FilterQuery.Query
