import FilterQuery.Proofs.Query.BuildLaws
import FilterQuery.Proofs.Text.Blank
import FilterQuery.Proofs.Text.Split
import FilterQuery.Query.Compiler

/-!
What the leaves of the grammar stand for, as plain values: converted texts, search blocks and
tags. The compiler yields exactly these, and it joins no empty list on the way.
-/
namespace FilterQuery.Query

open Build

variable {C Handler : Type} (F : Factory C) (st : Setting Handler)

/-- The value a text stands for: the one its type reads, or else the text itself. -/
def converted (r : Resolved) (raw : String) : Value :=
  match r.property.type.read raw with
  | .ok v => v
  | .error _ => .string raw

/-- Nothing for no parts, a single part itself, and several parts joined. -/
def joined (join : List C → C) : List C → Option C
  | [] => none
  | [c] => some c
  | cs => some (join cs)

/-- One comparison of a word for each search field, of which one has to hold. -/
def wordGroup (mode : Option SearchMode) (word : String) : C :=
  F.any (st.searchFields.map fun f => F.search f.field (mode.getD f.mode) word)

/-- The search for a phrase. -/
def phraseBlock (text : String) : Option C :=
  if st.searchFields = [] then none else some (F.all [wordGroup F st (some .equal) text])

/-- The search for every word of a text. -/
def wordsBlock (text : String) : Option C :=
  if st.searchFields = [] ∨ Text.words text.toList = [] then none
  else some (F.all ((Text.words text.toList).map fun w => wordGroup F st none (String.ofList w)))

/-- The search for a term. -/
def termBlock (t : Term) : Option C :=
  if t.exact then phraseBlock F st t.text else wordsBlock F st t.text

/-- The value that a term stands for in a comparison. -/
def operandValue (r : Resolved) (t : Term) : Value :=
  if !t.exact && t.text == nullSign then .null else converted r t.text

/-- What a handler gives for the value of a tag. -/
def handled [TagHandler Handler C] (handler : Handler) (value : String) : Option C :=
  match (TagHandler.generate F st handler value).result with
  | .ok c => c
  | .error _ => none

/-- What a tag stands for. -/
def tagged [TagHandler Handler C] : Tag → Option C
  | ⟨some type, some value⟩ =>
    (st.tags.lookup type).bind fun handler => handled F st handler value
  | _ => none

/-- The equality that a tag stands for where fields handle tags. -/
def tagEquality (F : Factory C) (st : Setting) : Tag → Option C
  | ⟨some type, some value⟩ =>
    (st.tags.lookup type).bind fun field =>
      (st.schema.resolve? st.root field).map fun r => F.eq field (converted r value)
  | _ => none

/-- The constraints that are no junction and no negation: comparisons of fields that resolve,
and search blocks. -/
inductive LeafConstraint : C → Prop where
  | comparison {field : FieldPath} {r : Resolved} (h : st.schema.resolve? st.root field = some r)
      (op : Operator) (t : Term) : LeafConstraint (F.compare field op (operandValue r t))
  | phrase (hf : st.searchFields ≠ []) (text : String) :
      LeafConstraint (F.all [wordGroup F st (some .equal) text])
  | words (hf : st.searchFields ≠ []) (ws : List String) (hne : ws ≠ [])
      (hw : ∀ w ∈ ws, w ≠ "" ∧ ∀ c ∈ w.toList, Text.isBlank c = false) :
      LeafConstraint (F.all (ws.map (wordGroup F st none)))

theorem leafConstraint_of_termBlock {t : Term} {c : C} (h : c ∈ termBlock F st t) :
    LeafConstraint F st c := by
  rw [termBlock] at h
  split at h
  · rw [phraseBlock] at h
    split at h
    · cases h
    · cases h
      exact .phrase (by assumption) t.text
  · rw [wordsBlock] at h
    split at h
    · cases h
    · rename_i hn
      rw [not_or] at hn
      cases h
      have hl := LeafConstraint.words (F := F) hn.1 ((Text.words t.text.toList).map String.ofList)
        (by simpa using hn.2) (by
          intro w hw
          obtain ⟨v, hv, rfl⟩ := List.mem_map.mp hw
          refine ⟨?_, ?_⟩
          · simpa using Text.ne_nil_of_mem_words hv
          · simpa using Text.isBlank_of_mem_words hv)
      simpa [List.map_map, Function.comp_def] using hl

/-- The notes that the compiler makes itself. That the field of a tag does not resolve is noted
by its handler. -/
def OwnNote : Note → Prop
  | .unresolvedTagField _ => False
  | _ => True

/-- `E` holds of what the compiler does itself: of its notes, and of every call whose list, if it
has one, is not empty. -/
structure AdmitsOwn (E : Event C → Prop) : Prop where
  note : ∀ n, OwnNote n → E (.noted n)
  search : ∀ field mode word, E (.built (F.search field mode word))
  compare : ∀ field op value, E (.built (F.compare field op value))
  negate : ∀ c, E (.built (F.negate c))
  all : ∀ cs, cs ≠ [] → E (.built (F.all cs))
  any : ∀ cs, cs ≠ [] → E (.built (F.any cs))

/-- `E` holds of what the compiler does itself and of all that a registered handler builds and
notes. -/
structure Admits [TagHandler Handler C] (E : Event C → Prop) : Prop extends AdmitsOwn F E where
  tag : ∀ type handler, st.tags.lookup type = some handler →
    ∀ value, ∀ e ∈ (TagHandler.generate F st handler value).events, E e

/-- `E` holds of the note that a text is kept as it is. -/
def AdmitsText (E : Event C → Prop) : Prop :=
  ∀ entity property error, E (.noted (.keptText entity property error))

variable {F} {E : Event C → Prop}

theorem admitsOwn_true (F : Factory C) : AdmitsOwn F fun _ => True := by
  constructor <;> intros <;> trivial

theorem AdmitsOwn.text (h : AdmitsOwn F E) : AdmitsText E := fun _ _ _ => h.note _ trivial

theorem convert_yields (hn : AdmitsText E) (r : Resolved) (raw : String) :
    (convert r raw : Build C Value).Yields E (converted r raw) := by
  rw [convert, converted]
  cases r.property.type.read raw with
  | ok v => exact yields_pure v
  | error e => exact (yields_note (hn _ _ _)).bind (yields_pure _)

theorem combine_yields (join : List C → C) (cs : List C)
    (h : cs ≠ [] → E (.built (join cs))) : (combine join cs).Yields E (joined join cs) := by
  match cs with
  | [] => exact yields_pure none
  | [c] => exact yields_pure (some c)
  | c :: d :: cs => exact (yields_make (h (by simp))).map some

theorem convertTerm_yields (hn : AdmitsText E) (r : Resolved) (t : Term) :
    (convertTerm r t : Build C Value).Yields E (operandValue r t) := by
  rw [convertTerm, operandValue]
  split
  · exact yields_pure _
  · exact convert_yields hn r t.text

theorem compileComparison_yields (hE : AdmitsOwn F E) (field : String) (r : Resolved)
    {cs : List Char} {op : Operator} {width : Nat} (h : Operator.at? cs = some (op, width)) :
    (compileComparison F field r cs).Yields E
      (some (F.compare ⟨field⟩ op (operandValue r (takeValue (cs.drop width)).1)),
        (takeValue (cs.drop width)).2) := by
  rw [compileComparison, h]
  exact (convertTerm_yields hE.text r _).bind
    ((yields_make (hE.compare _ _ _)).bind (yields_pure _))

theorem searchWord_yields (hE : AdmitsOwn F E) (hf : st.searchFields ≠ [])
    (mode : Option SearchMode) (word : String) :
    (searchWord F st mode word).Yields E (wordGroup F st mode word) := by
  have hm := yields_mapM (l := st.searchFields) (E := E)
    (f := fun f => make (F.search f.field (mode.getD f.mode) word))
    (fun f _ => yields_make (hE.search f.field (mode.getD f.mode) word))
  exact hm.bind (yields_make (hE.any _ (by simpa using hf)))

theorem searchTerm_yields (hE : AdmitsOwn F E) (t : Term) :
    (searchTerm F st t).Yields E (termBlock F st t) := by
  rw [searchTerm, termBlock, phraseBlock, wordsBlock]
  by_cases hf : st.searchFields = []
  · simp only [hf, ↓reduceIte, true_or, ite_self]
    exact (yields_note (hE.note (.nothingToSearch t.text) trivial)).bind (yields_pure none)
  · by_cases hx : t.exact = true
    · simp only [hf, hx, ↓reduceIte]
      refine (searchWord_yields st hE hf (some .equal) t.text).bind ?_
      exact (yields_make (hE.all _ (by simp))).map some
    · cases hw : Text.words t.text.toList with
      | nil => simpa [hf, hx] using yields_pure (E := E) (none : Option C)
      | cons w ws =>
        have hm := yields_mapM (l := w :: ws) fun v _ =>
          searchWord_yields st hE hf none (String.ofList v)
        simp only [hf, hx, ↓reduceIte, reduceCtorEq, or_self, Bool.false_eq_true]
        exact hm.bind ((yields_make (hE.all _ (by simp))).map some)

/-- A term that names no field, and the text after it. -/
def looseTerm (t : Term) (skipped : Bool) (cs : List Char) : Term × List Char :=
  if skipped then (t, cs) else extendTerm t cs

theorem compileOperation_yields (hE : AdmitsOwn F E) (t : Term) (skipped : Bool) (cs : List Char)
    (h : st.schema.resolve? st.root ⟨t.text⟩ = none) :
    (compileOperation F st t skipped cs).Yields E
      (termBlock F st (looseTerm t skipped cs).1, (looseTerm t skipped cs).2) := by
  rw [compileOperation, h]
  refine (yields_note (hE.note (.unknownField t.text) trivial)).bind ?_
  exact (searchTerm_yields st hE _).bind (yields_pure _)

/-- A field builds an equality, or notes that it does not resolve. -/
theorem tagConstraint_yields (hE : AdmitsOwn F E) (field : FieldPath)
    (hf : st.schema.resolve? st.root field = none →
      E (.noted (.unresolvedTagField field.text))) (value : String) :
    (tagConstraint F st field value).Yields E
      ((st.schema.resolve? st.root field).map fun r => F.eq field (converted r value)) := by
  rw [tagConstraint]
  cases hr : st.schema.resolve? st.root field with
  | none => exact (yields_note (hf hr)).bind (yields_pure none)
  | some r =>
    exact (convert_yields hE.text r value).bind
      ((yields_make (hE.compare field .equal _)).map some)

theorem generate_field (st : Setting) (field : FieldPath) (value : String) :
    TagHandler.generate F st field value = tagConstraint F st field value := rfl

theorem handled_field (st : Setting) (field : FieldPath) (value : String) :
    handled F st field value =
      (st.schema.resolve? st.root field).map fun r => F.eq field (converted r value) := by
  have h := tagConstraint_yields st (admitsOwn_true F) field (fun _ => trivial) value
  rw [handled, generate_field, h.result]

theorem tagged_eq_tagEquality (F : Factory C) (st : Setting) (t : Tag) :
    tagged F st t = tagEquality F st t := by
  match t with
  | ⟨none, _⟩ => rfl
  | ⟨some _, none⟩ => rfl
  | ⟨some type, some value⟩ => simp only [tagged, tagEquality, handled_field]

theorem leafConstraint_of_tagged {st : Setting} {t : Tag} {c : C} (h : c ∈ tagged F st t) :
    LeafConstraint F st c := by
  rw [tagged_eq_tagEquality] at h
  match t with
  | ⟨none, _⟩ => cases h
  | ⟨some _, none⟩ => cases h
  | ⟨some type, some value⟩ =>
    obtain ⟨field, -, h⟩ := Option.bind_eq_some_iff.mp h
    obtain ⟨r, hr, rfl⟩ := Option.map_eq_some_iff.mp h
    exact .comparison hr .equal ⟨value, true⟩

/-- Where fields handle tags, they add the note of a registered field that does not resolve. -/
theorem AdmitsOwn.admits {st : Setting} (hE : AdmitsOwn F E)
    (hf : ∀ type field, st.tags.lookup type = some field →
      st.schema.resolve? st.root field = none → E (.noted (.unresolvedTagField field.text))) :
    Admits F st E where
  toAdmitsOwn := hE
  tag := fun type field hl value =>
    (tagConstraint_yields st hE field (hf type field hl) value).events

variable [TagHandler Handler C]

theorem admits_true (F : Factory C) (st : Setting Handler) : Admits F st fun _ => True :=
  ⟨admitsOwn_true F, fun _ _ _ _ _ _ => trivial⟩

theorem generate_yields (hE : Admits F st E) {type : String} {handler : Handler}
    (hl : st.tags.lookup type = some handler) (value : String) :
    (TagHandler.generate F st handler value).Yields E (handled F st handler value) where
  events := hE.tag type handler hl value
  result := by
    obtain ⟨c, hc⟩ := TagHandler.returns F st handler value
    rw [handled, hc]

theorem compileTag_yields (hE : Admits F st E) (payload : List Char) :
    (compileTag F st payload).Yields E (tagged F st (Tag.read (String.ofList payload))) := by
  rw [compileTag]
  have hnone (n : Note) (hn : OwnNote n) :
      (do note n; pure none : Build C (Option C)).Yields E none :=
    (yields_note (hE.note n hn)).bind (yields_pure none)
  match Tag.read (String.ofList payload) with
  | ⟨some type, some value⟩ =>
    cases h : st.tags.lookup type with
    | none => simpa [tagged, h] using hnone (.unhandledTag type) trivial
    | some handler => simpa [tagged, h] using generate_yields st hE h value
  | ⟨none, _⟩ => exact hnone (.malformedTag _) trivial
  | ⟨some _, none⟩ => exact hnone (.malformedTag _) trivial

/-- A setting to run queries in: users with a name, which is searched, and an age, which tags of
type `Y` compare. -/
def sampleSetting : Setting :=
  let user : Entity := ⟨"user", [⟨"name", .string, none⟩, ⟨"age", .int, none⟩]⟩
  { schema := ⟨[user]⟩
    root := user
    searchFields := [⟨⟨"name"⟩, .like⟩]
    tags := .ofList [("Y", ⟨"age"⟩)] }

end FilterQuery.Query
