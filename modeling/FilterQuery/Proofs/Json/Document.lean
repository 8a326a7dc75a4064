import FilterQuery.Json.Reader
import FilterQuery.Proofs.Json.Token

/-!
Documents are read back from both of their texts. The scanner gives the tokens of the document,
whatever blanks are between them, and the machine rebuilds the document from them.
-/
namespace FilterQuery.Json

mutual

/-- A document that its text keeps: numbers are integers of 64 bits, every part denotes
something, and a name is known to have escapes just when it needs them. -/
def IsPlain : Json → Prop
  | .number n => n.IsWord
  | .array items => PlainItems items
  | .object fields => PlainFields fields
  | .unreadable => False
  | _ => True

def PlainItems : List Json → Prop
  | [] => True
  | j :: js => IsPlain j ∧ PlainItems js

def PlainFields : List (FieldName × Json) → Prop
  | [] => True
  | (k, j) :: fs => (k.escaped = hasEscapes k.text ∧ IsPlain j) ∧ PlainFields fs

end

theorem plainItems_iff {js : List Json} : PlainItems js ↔ ∀ j ∈ js, j.IsPlain := by
  induction js with
  | nil => simp [PlainItems]
  | cons j js ih => simp [PlainItems, ih]

theorem plainFields_iff {fs : List (FieldName × Json)} :
    PlainFields fs ↔ ∀ f ∈ fs, f.1.escaped = hasEscapes f.1.text ∧ f.2.IsPlain := by
  induction fs with
  | nil => simp [PlainFields]
  | cons f fs ih => simp only [PlainFields, ih, List.forall_mem_cons]

mutual

theorem IsPlain.isReadable : ∀ {j : Json}, j.IsPlain → j.isReadable = true
  | .null, _ => rfl
  | .bool _, _ => rfl
  | .number _, _ => rfl
  | .string _, _ => rfl
  | .array _, h => PlainItems.readable h
  | .object _, h => PlainFields.readable h

theorem PlainItems.readable : ∀ {js : List Json}, PlainItems js → readableItems js = true
  | [], _ => rfl
  | _ :: _, h => by rw [readableItems, h.1.isReadable, PlainItems.readable h.2, Bool.and_true]

theorem PlainFields.readable :
    ∀ {fs : List (FieldName × Json)}, PlainFields fs → readableFields fs = true
  | [], _ => rfl
  | (_, _) :: _, h => by
    rw [readableFields, h.1.2.isReadable, PlainFields.readable h.2, Bool.and_true]

end

/-- A bracket or a separator. -/
def Token.isSign : Token → Bool
  | .openArray => true
  | .closeArray => true
  | .openObject => true
  | .closeObject => true
  | .comma => true
  | .colon => true
  | _ => false

/-- A text that is scanned to these tokens in front of whatever ends a number. -/
def Scans (text : List Char) (ts : List Token) : Prop :=
  ∀ rest, EndsNumber rest → scan (text ++ rest) = (scan rest).map (ts ++ ·)

/-- A text that is scanned to these tokens in front of anything. -/
def ScansAlone (text : List Char) (ts : List Token) : Prop :=
  ∀ rest, scan (text ++ rest) = (scan rest).map (ts ++ ·)

/-- A text in front of which a number ends. -/
def Closes (text : List Char) : Prop := ∀ rest, EndsNumber (text ++ rest)

variable {text more : List Char} {ts us : List Token}

theorem ScansAlone.scans (h : ScansAlone text ts) : Scans text ts := fun rest _ => h rest

theorem map_append_append (o : Option (List Token)) :
    (o.map (us ++ ·)).map (ts ++ ·) = o.map (ts ++ us ++ ·) := by
  rw [Option.map_map]
  congr 1
  funext vs
  simp

theorem ScansAlone.append (h : ScansAlone text ts) (h' : ScansAlone more us) :
    ScansAlone (text ++ more) (ts ++ us) := by
  intro rest
  rw [List.append_assoc, h, h', map_append_append]

theorem Scans.append (h : Scans text ts) (h' : ScansAlone more us) (hends : Closes more) :
    ScansAlone (text ++ more) (ts ++ us) := by
  intro rest
  rw [List.append_assoc, h _ (hends rest), h', map_append_append]

theorem scans_write {t : Token} (ht : t.IsPlain) : Scans t.write [t] :=
  fun _ hrest => scan_write ht fun _ _ => hrest

/-- Brackets and separators are scanned in front of anything. -/
theorem scansAlone_sign {t : Token} (ht : t.isSign = true) : ScansAlone t.write [t] := by
  have hplain : t.IsPlain := by
    cases t <;> first | exact trivial | cases ht
  intro rest
  apply scan_write hplain
  rintro n rfl
  cases ht

theorem ScansAlone.sign {t : Token} (h : ScansAlone text ts) (ht : t.isSign = true) :
    ScansAlone (t.write ++ text) (t :: ts) :=
  (scansAlone_sign ht).append h

theorem scansAlone_ofText (s : String) : ScansAlone (writeString s) [.ofText s] :=
  scan_writeString s

theorem scansAlone_space {c : Char} (h : isSpace c = true) : ScansAlone [c] [] := by
  intro rest
  rw [List.singleton_append, scan_space h]
  simp

theorem scansAlone_newLine (level : Nat) : ScansAlone (newLine level) [] := by
  have hspaces (n : Nat) : ScansAlone (List.replicate n ' ') [] := by
    induction n with
    | zero => intro rest; simp
    | succ n ih =>
      rw [List.replicate_succ']
      exact ih.append (scansAlone_space rfl)
  exact (scansAlone_space rfl).append (hspaces (2 * level))

theorem closes_cons {c : Char} (h : c.isDigit = false ∧ c ≠ '.' ∧ c ≠ 'e' ∧ c ≠ 'E')
    (cs : List Char) : Closes (c :: cs) :=
  fun rest => endsNumber_cons h (cs ++ rest)

theorem closes_tokensItems (js : List Json) : Closes ((tokensItems js).flatMap Token.write) := by
  cases js with
  | nil => exact closes_cons (by decide) _
  | cons j js => exact closes_cons (by decide) _

theorem closes_tokensFields (fs : List (FieldName × Json)) :
    Closes ((tokensFields fs).flatMap Token.write) := by
  cases fs with
  | nil => exact closes_cons (by decide) _
  | cons f fs => exact closes_cons (by decide) _

theorem closes_prettyItems (level : Nat) (js : List Json) : Closes (prettyItems level js) := by
  cases js with
  | nil => exact closes_cons (by decide) _
  | cons j js => exact closes_cons (by decide) _

theorem closes_prettyFields (level : Nat) (fs : List (FieldName × Json)) :
    Closes (prettyFields level fs) := by
  cases fs with
  | nil => exact closes_cons (by decide) _
  | cons f fs => exact closes_cons (by decide) _

/-- The text of a field up to its value. -/
theorem scansAlone_field (k : FieldName) {colon : List Char} (h : ScansAlone colon [.colon]) :
    ScansAlone (writeString k.text ++ colon) [.ofText k.text, .colon] :=
  (scansAlone_ofText k.text).append h

mutual

theorem scans_tokens : ∀ {j : Json}, j.IsPlain → Scans (j.tokens.flatMap Token.write) j.tokens
  | .null, _ => scans_write (t := .null) trivial
  | .bool b, _ => by simpa [tokens] using scans_write (t := .bool b) trivial
  | .number n, h => by simpa [tokens] using scans_write (t := .number n) h
  | .string s, _ => by
    simpa [tokens, Token.ofText, Token.write] using (scansAlone_ofText s).scans
  | .array [], _ => by
    have hclose := scansAlone_sign (t := .closeArray) rfl
    exact (hclose.sign (t := .openArray) rfl).scans
  | .array (j :: js), h => by
    have hitems := (scans_tokens h.1).append (scansAlone_tokensItems h.2) (closes_tokensItems js)
    rw [tokens, List.cons_append, List.flatMap_cons, List.flatMap_append]
    exact (hitems.sign (t := .openArray) rfl).scans
  | .object [], _ => by
    have hclose := scansAlone_sign (t := .closeObject) rfl
    exact (hclose.sign (t := .openObject) rfl).scans
  | .object ((k, j) :: fs), h => by
    have hfields :=
      (scans_tokens h.1.2).append (scansAlone_tokensFields h.2) (closes_tokensFields fs)
    have hname := scansAlone_field k (scansAlone_sign (t := .colon) rfl)
    have hobject := (hname.append hfields).sign (t := .openObject) rfl
    simpa [tokens, Token.ofText, Token.write] using hobject.scans

theorem scansAlone_tokensItems : ∀ {js : List Json},
    PlainItems js → ScansAlone ((tokensItems js).flatMap Token.write) (tokensItems js)
  | [], _ => by simpa [tokensItems] using scansAlone_sign (t := .closeArray) rfl
  | j :: js, h => by
    have hitems := (scans_tokens h.1).append (scansAlone_tokensItems h.2) (closes_tokensItems js)
    rw [tokensItems, List.cons_append, List.flatMap_cons, List.flatMap_append]
    exact hitems.sign (t := .comma) rfl

theorem scansAlone_tokensFields : ∀ {fs : List (FieldName × Json)},
    PlainFields fs → ScansAlone ((tokensFields fs).flatMap Token.write) (tokensFields fs)
  | [], _ => by simpa [tokensFields] using scansAlone_sign (t := .closeObject) rfl
  | (k, j) :: fs, h => by
    have hfields :=
      (scans_tokens h.1.2).append (scansAlone_tokensFields h.2) (closes_tokensFields fs)
    have hname := scansAlone_field k (scansAlone_sign (t := .colon) rfl)
    have hmore := (hname.append hfields).sign (t := .comma) rfl
    simpa [tokensFields, Token.ofText, Token.write] using hmore

end

theorem scansAlone_colonSpace : ScansAlone ": ".toList [.colon] :=
  (scansAlone_space rfl).sign (t := .colon) rfl

/-- What is written on a new line is scanned to the same tokens. -/
theorem ScansAlone.onNewLine (level : Nat) (h : ScansAlone text ts) :
    ScansAlone (newLine level ++ text) ts :=
  (scansAlone_newLine level).append h

mutual

theorem scans_writePretty (level : Nat) :
    ∀ {j : Json}, j.IsPlain → Scans (writePretty level j) j.tokens
  | .null, _ => scans_write (t := .null) trivial
  | .bool b, _ => scans_write (t := .bool b) trivial
  | .number n, h => scans_write (t := .number n) h
  | .string s, _ => (scansAlone_ofText s).scans
  | .array [], _ => by
    have hclose := scansAlone_sign (t := .closeArray) rfl
    exact (hclose.sign (t := .openArray) rfl).scans
  | .array (j :: js), h => by
    have hitems := (scans_writePretty (level + 1) h.1).append
      (scansAlone_prettyItems level h.2) (closes_prettyItems level js)
    have harray := (hitems.onNewLine (level + 1)).sign (t := .openArray) rfl
    simpa [tokens, writePretty, Token.write] using harray.scans
  | .object [], _ => by
    have hclose := scansAlone_sign (t := .closeObject) rfl
    exact (hclose.sign (t := .openObject) rfl).scans
  | .object ((k, j) :: fs), h => by
    have hfields := (scans_writePretty (level + 1) h.1.2).append
      (scansAlone_prettyFields level h.2) (closes_prettyFields level fs)
    have hname := (scansAlone_field k scansAlone_colonSpace).onNewLine (level + 1)
    have hobject := (hname.append hfields).sign (t := .openObject) rfl
    simpa [tokens, writePretty] using hobject.scans

theorem scansAlone_prettyItems (level : Nat) : ∀ {js : List Json},
    PlainItems js → ScansAlone (prettyItems level js) (tokensItems js)
  | [], _ => (scansAlone_sign (t := .closeArray) rfl).onNewLine level
  | j :: js, h => by
    have hitems := (scans_writePretty (level + 1) h.1).append
      (scansAlone_prettyItems level h.2) (closes_prettyItems level js)
    have hmore := (hitems.onNewLine (level + 1)).sign (t := .comma) rfl
    simpa [tokensItems, prettyItems, Token.write] using hmore

theorem scansAlone_prettyFields (level : Nat) : ∀ {fs : List (FieldName × Json)},
    PlainFields fs → ScansAlone (prettyFields level fs) (tokensFields fs)
  | [], _ => (scansAlone_sign (t := .closeObject) rfl).onNewLine level
  | (k, j) :: fs, h => by
    have hfields := (scans_writePretty (level + 1) h.1.2).append
      (scansAlone_prettyFields level h.2) (closes_prettyFields level fs)
    have hname := (scansAlone_field k scansAlone_colonSpace).onNewLine (level + 1)
    have hmore := (hname.append hfields).sign (t := .comma) rfl
    simpa [tokensFields, prettyFields, Token.write] using hmore

end

theorem ofFields_map (fs : List (FieldName × Json)) :
    ofFields (fs.map fun f => (some f.1, f.2)) = .object fs := by
  have hnamed : (fs.map fun f => (some f.1, f.2)).mapM
      (fun f : Option FieldName × Json => f.1.map fun name => (name, f.2)) = some fs := by
    induction fs with
    | nil => rfl
    | cons f fs ih => simp [ih]
  rw [ofFields, hnamed]
  rfl

/-- No value starts with the end of an array. -/
theorem tokens_eq_cons (j : Json) : ∃ t ts, j.tokens = t :: ts ∧ t ≠ .closeArray := by
  cases j with
  | array items => cases items <;> exact ⟨_, _, rfl, nofun⟩
  | object fields => cases fields <;> exact ⟨_, _, rfl, nofun⟩
  | _ => exact ⟨_, _, rfl, nofun⟩

variable {stack : List Frame}

/-- The first item of an array is read like any other. -/
theorem foldlM_openedArray (j : Json) (ts : List Token) :
    (j.tokens ++ ts).foldlM step (.openedArray stack) =
      (j.tokens ++ ts).foldlM step (.awaitValue (.items [] :: stack)) := by
  obtain ⟨t, us, htokens, ht⟩ := tokens_eq_cons j
  rw [htokens, List.cons_append, List.foldlM_cons, List.foldlM_cons]
  congr 1
  cases t <;> first | rfl | exact absurd rfl ht

mutual

/-- The tokens of a document lead to the document. -/
theorem foldlM_tokens : ∀ {j : Json} {stack : List Frame}, j.IsPlain →
    j.tokens.foldlM step (.awaitValue stack) = some (give j stack)
  | .null, _, _ => rfl
  | .bool _, _, _ => rfl
  | .number _, _, _ => rfl
  | .string _, _, _ => rfl
  | .array [], _, _ => rfl
  | .array (j :: js), stack, h => by
    have hstart : step (.awaitValue stack) .openArray = some (.openedArray stack) := rfl
    rw [tokens, List.cons_append, List.foldlM_cons, hstart, Option.bind_eq_bind, Option.bind_some,
      foldlM_openedArray, List.foldlM_append, foldlM_tokens h.1]
    exact foldlM_tokensItems h.2
  | .object [], _, _ => rfl
  | .object ((k, j) :: fs), stack, h => by
    have hname : k = ⟨k.text, hasEscapes k.text⟩ := by rw [← h.1.1]
    have hstart : [Token.openObject, .ofText k.text, .colon].foldlM step (.awaitValue stack) =
        some (.awaitValue (.field [] (some k) :: stack)) := by
      conv_rhs => rw [hname]
      rfl
    have htokens : tokens (.object ((k, j) :: fs)) =
        [.openObject, .ofText k.text, .colon] ++ (j.tokens ++ tokensFields fs) := by
      simp [tokens]
    rw [htokens, List.foldlM_append, hstart, Option.bind_eq_bind, Option.bind_some,
      List.foldlM_append, foldlM_tokens h.1.2]
    exact foldlM_tokensFields [(k, j)] stack h.2

theorem foldlM_tokensItems : ∀ {js done : List Json} {stack : List Frame}, PlainItems js →
    (tokensItems js).foldlM step (.afterItem done stack) =
      some (give (.array (done.reverse ++ js)) stack)
  | [], done, _, _ => by simp [tokensItems, step]
  | j :: js, done, stack, h => by
    have hcomma : step (.afterItem done stack) .comma = some (.awaitValue (.items done :: stack)) :=
      rfl
    rw [tokensItems, List.cons_append, List.foldlM_cons, hcomma, Option.bind_eq_bind,
      Option.bind_some, List.foldlM_append, foldlM_tokens h.1, Option.bind_eq_bind,
      Option.bind_some, give, foldlM_tokensItems h.2, List.reverse_cons, List.append_assoc]
    rfl

theorem foldlM_tokensFields : ∀ {fs : List (FieldName × Json)}
    (done : List (FieldName × Json)) (stack : List Frame), PlainFields fs →
    (tokensFields fs).foldlM step (.afterField (done.map fun f => (some f.1, f.2)) stack) =
      some (give (.object (done.reverse ++ fs)) stack)
  | [], done, _, _ => by
    rw [tokensFields, List.foldlM_cons, step, ← List.map_reverse, ofFields_map, List.append_nil]
    rfl
  | (k, j) :: fs, done, stack, h => by
    have hname : k = ⟨k.text, hasEscapes k.text⟩ := by rw [← h.1.1]
    have hstart (before : List (Option FieldName × Json)) :
        [Token.comma, .ofText k.text, .colon].foldlM step (.afterField before stack) =
          some (.awaitValue (.field before (some k) :: stack)) := by
      conv_rhs => rw [hname]
      rfl
    have htokens : tokensFields ((k, j) :: fs) =
        [.comma, .ofText k.text, .colon] ++ (j.tokens ++ tokensFields fs) := by
      simp [tokensFields]
    have hrest := foldlM_tokensFields ((k, j) :: done) stack h.2
    rw [htokens, List.foldlM_append, hstart, Option.bind_eq_bind, Option.bind_some,
      List.foldlM_append, foldlM_tokens h.1.2, Option.bind_eq_bind, Option.bind_some, give]
    simpa using hrest

end

theorem read?_ofList {j : Json} {text : List Char} (hj : j.IsPlain) (h : Scans text j.tokens) :
    read? (String.ofList text) = some j := by
  have hscan : scan text = some j.tokens := by
    have hend := h [] (by simp [EndsNumber])
    simpa [scan] using hend
  rw [read?, String.toList_ofList, hscan, Option.bind_some, ofTokens?, foldlM_tokens hj]
  rfl

/-- A plain document is read back from its text without blanks. -/
theorem read?_compact {j : Json} (h : j.IsPlain) : read? j.compact = some j :=
  read?_ofList h (scans_tokens h)

/-- A plain document is read back from its indented text. -/
theorem read?_pretty {j : Json} (h : j.IsPlain) : read? j.pretty = some j :=
  read?_ofList h (scans_writePretty 0 h)

end FilterQuery.Json
