import OpenMemory.Foundation.MatchQuery
import OpenMemory.Index.FullText

/-!
# Escaped queries

The full-text table reads its queries by a grammar of its own, and the queries of a user are free
text. Each word of the text is put in quotes, and a longer one is also taken as the beginning of a
word, without quotes and without the characters that are not part of words. No mark of the text
reaches the grammar by either way.

Text that is handed to SQLite ends at its first NUL. A NUL is not white space, and the quotes
around a word that contains one are left open.
-/

namespace OpenMemory.Index

open Foundation OpenMemory.Graph MatchQuery

namespace EscapedQueries

/-! ## Terms -/

/-- A word as it stands, and what may begin a word. -/
structure Term where
  word : List Char
  stem : Option (List Char)

def choice : List Char := [' ', 'O', 'R', ' ']

/-- A word between quotes. -/
def quoted (word : List Char) : List Char := quotes :: (Lexer.escape word ++ [quotes])

namespace Term

def text (term : Term) : List Char :=
  match term.stem with
  | none => quoted term.word
  | some stem => '(' :: (quoted term.word ++ (choice ++ (stem ++ ['*', ')'])))

def tokens (term : Term) : List Token :=
  match term.stem with
  | none => [.word (.string term.word)]
  | some stem =>
    [.leftParen, .word (.string term.word), .or, .word (.bareword stem), .star, .rightParen]

def parts (term : Term) : List Part :=
  ⟨.string term.word, false⟩ :: term.stem.toList.map fun stem => ⟨.bareword stem, true⟩

/-- What is taken as the beginning of a word is a bareword. -/
def Bare (term : Term) : Prop :=
  ∀ stem ∈ term.stem, stem ≠ [] ∧ (∀ c ∈ stem, isBareword c = true) ∧
    wordToken stem = .word (.bareword stem)

end Term

/-! ## What is read of terms -/

/-- The lexer has read the tokens, though the end of the last one may still be open. -/
structure Ends (lexer : Lexer) (tokens : List Token) : Prop where
  finish : lexer.finish = some tokens
  space : lexer.read ' ' = some ⟨.between, tokens⟩

theorem run_quoted (tokens : List Token) (word : List Char) :
    Lexer.run ⟨.between, tokens⟩ (quoted word) = some ⟨.closing word, tokens⟩ := by
  change Lexer.run _ ([quotes] ++ (Lexer.escape word ++ [quotes])) = _
  rw [Lexer.run_append_of_eq (Lexer.run_singleton _ _), Lexer.run_append_of_eq
    (Lexer.run_escape word [] tokens)]
  exact Lexer.run_singleton _ _

theorem run_choice (tokens : List Token) (word : List Char) :
    Lexer.run ⟨.closing word, tokens⟩ choice =
      some ⟨.between, tokens ++ [.word (.string word), .or]⟩ := by
  have read : Lexer.run ⟨.closing word, tokens⟩ choice =
      some ⟨.between, tokens ++ [.word (.string word)] ++ [.or]⟩ := rfl
  rw [read, List.append_assoc]
  rfl

theorem run_term {term : Term} (bare : term.Bare) (tokens : List Token) :
    ∃ lexer, Lexer.run ⟨.between, tokens⟩ term.text = some lexer ∧
      Ends lexer (tokens ++ term.tokens) := by
  unfold Term.text Term.tokens
  cases expanded : term.stem with
  | none => exact ⟨_, run_quoted tokens term.word, rfl, rfl⟩
  | some stem =>
    obtain ⟨some_, letters, word⟩ := bare stem expanded
    have opened : Lexer.run ⟨.between, tokens⟩ ['('] = some ⟨.between, tokens ++ [.leftParen]⟩ :=
      rfl
    have read : Lexer.run
        ⟨.between, tokens ++ [.leftParen] ++ [.word (.string term.word), .or]⟩ stem =
        some ⟨.bare stem, tokens ++ [.leftParen] ++ [.word (.string term.word), .or]⟩ := by
      obtain ⟨c, rest, rfl⟩ := List.exists_cons_of_ne_nil some_
      exact Lexer.run_word letters _
    have closed (before : List Token) : Lexer.run ⟨.bare stem, before⟩ ['*', ')'] =
        some ⟨.between, before ++ [.word (.bareword stem)] ++ [.star] ++ [.rightParen]⟩ := by
      rw [← word]
      rfl
    refine ⟨⟨.between, tokens ++ [.leftParen, .word (.string term.word), .or,
      .word (.bareword stem), .star, .rightParen]⟩, ?_, rfl, rfl⟩
    change Lexer.run _ (['('] ++ (quoted term.word ++ (choice ++ (stem ++ ['*', ')'])))) = _
    rw [Lexer.run_append_of_eq opened, Lexer.run_append_of_eq (run_quoted _ _),
      Lexer.run_append_of_eq (run_choice _ _), Lexer.run_append_of_eq read, closed]
    simp only [List.append_assoc, List.cons_append, List.nil_append]

def textOf : List Term → List Char
  | [] => []
  | [term] => term.text
  | term :: rest => term.text ++ (choice ++ textOf rest)

def tokensOf : List Term → List Token
  | [] => []
  | [term] => term.tokens
  | term :: rest => term.tokens ++ .or :: tokensOf rest

theorem run_ends {lexer : Lexer} {tokens : List Token} (ends : Ends lexer tokens) :
    lexer.run choice = some ⟨.between, tokens ++ [.or]⟩ := by
  change lexer.run ([' '] ++ ['O', 'R', ' ']) = _
  rw [Lexer.run_append_of_eq ((Lexer.run_singleton _ _).trans ends.space)]
  rfl

theorem run_textOf {terms : List Term} (some_ : terms ≠ []) (bare : ∀ term ∈ terms, term.Bare)
    (before : List Token) : (Lexer.run ⟨.between, before⟩ (textOf terms)).bind Lexer.finish =
      some (before ++ tokensOf terms) := by
  fun_induction textOf terms generalizing before with
  | case1 => exact absurd rfl some_
  | case2 term =>
    obtain ⟨lexer, read, ends⟩ := run_term (bare term List.mem_cons_self) before
    rw [read]
    exact ends.finish
  | case3 term rest more ih =>
    obtain ⟨lexer, read, ends⟩ := run_term (bare term List.mem_cons_self) before
    rw [Lexer.run_append_of_eq read, Lexer.run_append_of_eq (run_ends ends),
      ih more (List.forall_mem_cons.mp bare).2, tokensOf]
    · simp only [List.append_assoc, List.cons_append, List.nil_append]
    · exact more

/-! ## What the grammar makes of terms -/

theorem Term.plain (term : Term) : ∀ token ∈ term.tokens, token.Plain := by
  unfold tokens
  cases term.stem with
  | none =>
    intro token member
    rw [List.mem_singleton.mp member]
    exact .word _
  | some stem =>
    intro token member
    simp only [List.mem_cons, List.not_mem_nil, or_false] at member
    obtain rfl | rfl | rfl | rfl | rfl | rfl := member
    · exact .leftParen
    · exact .word _
    · exact .or
    · exact .word _
    · exact .star
    · exact .rightParen

theorem Term.apart (term : Term) : term.tokens.IsChain Apart := by
  unfold tokens
  cases term.stem with
  | none => exact List.isChain_singleton _
  | some stem => simp [Apart, Token.opens, Token.closes]

theorem Term.parts_tokens (term : Term) : MatchQuery.parts term.tokens = term.parts := by
  unfold tokens parts
  cases term.stem with
  | none => rfl
  | some stem => rfl

theorem Term.isQuery (term : Term) : ∃ e, IsQuery .both term.tokens e := by
  have word (word : Word) : IsQuery .both [.word word] (.phrase false [⟨word, false⟩]) :=
    .negated (.plain (.unit (.base (.phrase (.part (.plain word))))))
  unfold tokens
  cases term.stem with
  | none => exact ⟨_, word _⟩
  | some stem =>
    have start : IsQuery .both [.word (.bareword stem), .star]
        (.phrase false [⟨.bareword stem, true⟩]) :=
      .negated (.plain (.unit (.base (.phrase (.part (.starred _))))))
    exact ⟨_, .negated (.plain (.unit (.base (.group (.or (.both (word _)) start)))))⟩

theorem tokensOf_plain (terms : List Term) : ∀ token ∈ tokensOf terms, token.Plain := by
  fun_induction tokensOf terms with
  | case1 => exact nofun
  | case2 term => exact term.plain
  | case3 term rest more ih =>
    intro token member
    rcases List.mem_append.mp member with own | others
    · exact term.plain token own
    · rcases List.mem_cons.mp others with rfl | others
      · exact .or
      · exact ih token others

theorem tokensOf_apart (terms : List Term) : (tokensOf terms).IsChain Apart := by
  fun_induction tokensOf terms with
  | case1 => exact List.isChain_nil
  | case2 term => exact term.apart
  | case3 term rest more ih =>
    have after : (Token.or :: tokensOf rest).IsChain Apart :=
      List.isChain_cons.mpr ⟨fun _ _ both => (nomatch both.1), ih⟩
    refine List.isChain_append.mpr ⟨term.apart, after, fun last _ first begins both => ?_⟩
    cases begins
    exact nomatch both.2

theorem parts_tokensOf (terms : List Term) :
    MatchQuery.parts (tokensOf terms) = terms.flatMap Term.parts := by
  fun_induction tokensOf terms with
  | case1 => rfl
  | case2 term =>
    rw [term.parts_tokens, List.flatMap_singleton]
  | case3 term rest more ih =>
    rw [parts_append (.or :: tokensOf rest) nofun, term.parts_tokens, List.flatMap_cons, ← ih]
    rfl

/-- What is read so far may be continued by a choice. -/
theorem isQuery_or {terms : List Term} (some_ : terms ≠ []) {before : List Token} {e : Expr}
    (read : IsQuery .either before e) : ∃ e', IsQuery .either (before ++ .or :: tokensOf terms) e' := by
  fun_induction tokensOf terms generalizing before e with
  | case1 => exact absurd rfl some_
  | case2 term =>
    obtain ⟨e', query⟩ := term.isQuery
    exact ⟨_, .or read query⟩
  | case3 term rest more ih =>
    obtain ⟨e', query⟩ := term.isQuery
    have further := ih more (.or read query)
    rwa [List.append_assoc] at further

theorem isQuery_tokensOf {terms : List Term} (some_ : terms ≠ []) :
    ∃ e, IsQuery .either (tokensOf terms) e := by
  match terms, some_ with
  | [term], _ =>
    obtain ⟨e, query⟩ := term.isQuery
    exact ⟨e, .both query⟩
  | term :: next :: rest, _ =>
    obtain ⟨e, query⟩ := term.isQuery
    exact isQuery_or (List.cons_ne_nil next rest) (.both query)

/-- **A text of terms** without a NUL is read as a choice between what the terms ask for. -/
theorem reads_textOf {terms : List Term} (some_ : terms ≠ []) (bare : ∀ term ∈ terms, term.Bare)
    (whole : nul ∉ textOf terms) : (∃ e, Reads (textOf terms) e) ∧
      ∀ e, Reads (textOf terms) e → e.choices = some (terms.flatMap Term.parts) := by
  have cut : (textOf terms).takeWhile (· ≠ nul) = textOf terms := by
    rw [List.takeWhile_eq_self_iff]
    intro c member
    exact decide_eq_true fun same => whole (same ▸ member)
  have read : MatchQuery.tokens (textOf terms) = some (tokensOf terms) := by
    unfold MatchQuery.tokens
    rw [cut]
    exact run_textOf some_ bare []
  constructor
  · obtain ⟨e, query⟩ := isQuery_tokensOf some_
    exact ⟨e, _, read, query⟩
  · rintro e ⟨list, same, query⟩
    cases read.symm.trans same
    rw [query.choices_eq (tokensOf_plain terms) (tokensOf_apart terms), parts_tokensOf]

/-! ## A word with a NUL -/

theorem escape_takeWhile (word : List Char) :
    (Lexer.escape word).takeWhile (· ≠ nul) = Lexer.escape (word.takeWhile (· ≠ nul)) := by
  unfold Lexer.escape
  induction word with
  | nil => rfl
  | cons c rest ih =>
    by_cases ends : c = nul
    · subst ends
      rfl
    · have goes : decide (c ≠ nul) = true := decide_eq_true ends
      have kept (more : List Char) : (c :: more).takeWhile (fun x => decide (x ≠ nul)) =
          c :: more.takeWhile (fun x => decide (x ≠ nul)) := List.takeWhile_cons_of_pos goes
      rw [List.flatMap_cons, kept, List.flatMap_cons, ← ih]
      by_cases mark : c = quotes
      · rw [if_pos mark]
        rfl
      · rw [if_neg mark]
        exact kept _

theorem nul_mem_escape {word : List Char} : nul ∈ Lexer.escape word ↔ nul ∈ word := by
  unfold Lexer.escape
  rw [List.mem_flatMap]
  constructor
  · rintro ⟨c, member, among⟩
    split at among
    · exact absurd among (by decide)
    · rwa [List.mem_singleton.mp among]
  · exact fun member => ⟨nul, member, List.mem_cons_self⟩

theorem takeWhile_append_of_mem {text rest : List Char} (ends : nul ∈ text) :
    (text ++ rest).takeWhile (· ≠ nul) = text.takeWhile (· ≠ nul) := by
  rw [List.takeWhile_append]
  refine if_neg fun whole => ?_
  have same := (List.takeWhile_prefix _).eq_of_length whole
  rw [List.takeWhile_eq_self_iff] at same
  exact absurd rfl (of_decide_eq_true (same nul ends))

theorem takeWhile_append_of_not_mem {text rest : List Char} (whole : nul ∉ text) :
    (text ++ rest).takeWhile (· ≠ nul) = text ++ rest.takeWhile (· ≠ nul) :=
  List.takeWhile_append_of_pos fun _ member => decide_eq_true fun same => whole (same ▸ member)

/-- The quotes around a word with a NUL are not closed. -/
theorem run_quoted_nul {word : List Char} (ends : nul ∈ word) (rest : List Char)
    (tokens : List Token) : (Lexer.run ⟨.between, tokens⟩
      ((quoted word ++ rest).takeWhile (· ≠ nul))).bind Lexer.finish = none := by
  have opened : Lexer.run ⟨.between, tokens⟩ [quotes] = some ⟨.quoted [], tokens⟩ := rfl
  change (Lexer.run _ (([quotes] ++ (Lexer.escape word ++ [quotes] ++ rest)).takeWhile
    (· ≠ nul))).bind _ = _
  rw [takeWhile_append_of_not_mem (by decide), List.append_assoc,
    takeWhile_append_of_mem (nul_mem_escape.mpr ends), escape_takeWhile,
    Lexer.run_append_of_eq opened, Lexer.run_escape]
  rfl

/-- Where a word has a NUL the text ends within a string. -/
theorem run_term_nul {term : Term} (ends : nul ∈ term.word) (rest : List Char)
    (tokens : List Token) : (Lexer.run ⟨.between, tokens⟩
      ((term.text ++ rest).takeWhile (· ≠ nul))).bind Lexer.finish = none := by
  unfold Term.text
  cases term.stem with
  | none => exact run_quoted_nul ends rest tokens
  | some stem =>
    have opened : Lexer.run ⟨.between, tokens⟩ ['('] = some ⟨.between, tokens ++ [.leftParen]⟩ :=
      rfl
    change (Lexer.run _ ((['('] ++
      (quoted term.word ++ (choice ++ (stem ++ ['*', ')'])) ++ rest)).takeWhile
        (· ≠ nul))).bind _ = _
    rw [takeWhile_append_of_not_mem (by decide), Lexer.run_append_of_eq opened, List.append_assoc]
    exact run_quoted_nul ends _ _

theorem nul_mem_quoted {word : List Char} : nul ∈ quoted word ↔ nul ∈ word := by
  unfold quoted
  rw [List.mem_cons, List.mem_append, List.mem_singleton, nul_mem_escape]
  have apart : nul ≠ quotes := by decide
  simp [apart]

theorem nul_mem_text {term : Term} (bare : term.Bare) : nul ∈ term.text ↔ nul ∈ term.word := by
  unfold Term.text
  cases expanded : term.stem with
  | none => exact nul_mem_quoted
  | some stem =>
    have letters : nul ∉ stem := fun member =>
      absurd ((bare stem expanded).2.1 nul member) (by decide)
    have before : nul ∉ choice := by decide
    have after : nul ∉ ['*', ')'] := by decide
    have first : nul ≠ '(' := by decide
    rw [List.mem_cons, List.mem_append, List.mem_append, List.mem_append, nul_mem_quoted]
    simp only [first, letters, before, after, or_false, false_or]

theorem run_textOf_nul {terms : List Term} (bare : ∀ term ∈ terms, term.Bare)
    (ends : ∃ term ∈ terms, nul ∈ term.word) (before : List Token) :
    (Lexer.run ⟨.between, before⟩ ((textOf terms).takeWhile (· ≠ nul))).bind Lexer.finish =
      none := by
  fun_induction textOf terms generalizing before with
  | case1 =>
    obtain ⟨term, member, -⟩ := ends
    cases member
  | case2 term =>
    obtain ⟨_, member, here⟩ := ends
    rw [List.mem_singleton.mp member] at here
    rw [← List.append_nil term.text]
    exact run_term_nul here [] before
  | case3 term rest more ih =>
    by_cases here : nul ∈ term.word
    · exact run_term_nul here _ before
    · have later : ∃ term ∈ rest, nul ∈ term.word := by
        obtain ⟨other, member, there⟩ := ends
        rcases List.mem_cons.mp member with rfl | member
        · exact absurd there here
        · exact ⟨other, member, there⟩
      have own := bare term List.mem_cons_self
      obtain ⟨lexer, read, stops⟩ := run_term own before
      rw [takeWhile_append_of_not_mem (mt (nul_mem_text own).mp here),
        takeWhile_append_of_not_mem (by decide), Lexer.run_append_of_eq read,
        Lexer.run_append_of_eq (run_ends stops)]
      exact ih (List.forall_mem_cons.mp bare).2 later _

theorem nul_mem_textOf {terms : List Term} (bare : ∀ term ∈ terms, term.Bare) :
    nul ∈ textOf terms ↔ ∃ term ∈ terms, nul ∈ term.word := by
  fun_induction textOf terms with
  | case1 => simp
  | case2 term =>
    rw [nul_mem_text (bare term List.mem_cons_self)]
    simp
  | case3 term rest more ih =>
    have between : nul ∉ choice := by decide
    rw [List.mem_append, List.mem_append, nul_mem_text (bare term List.mem_cons_self),
      ih (List.forall_mem_cons.mp bare).2,
      List.exists_mem_cons_iff, or_iff_right between]

/-! ## The queries of users -/

section Queries

variable [CharClasses]

/-- A letter or digit of any script, or an underscore. -/
def isWordChar (c : Char) : Bool := CharClasses.isAlphanumeric c || c.toNat == 0x5F

/-- The words of a query that are searched for. -/
def keywords (query : String) : List String :=
  (splitWhitespace query).filter fun word =>
    decide (2 ≤ word.utf8ByteSize) && word.toList.any isWordChar

/-- The term that is made of a word. -/
def termOf (word : String) : Option Term :=
  let cleaned := word.toList.filter isWordChar
  if decide (4 ≤ (String.ofList cleaned).utf8ByteSize) && !(fts5Operators.any fun op =>
      cleaned.map Char.toLower == op.toList.map Char.toLower) then some ⟨word.toList, some cleaned⟩
  else if !cleaned.isEmpty then some ⟨word.toList, none⟩
  else none

def terms (query : String) : List Term :=
  ((splitWhitespace query).filter fun word => decide (2 ≤ word.utf8ByteSize)).filterMap termOf

omit [CharClasses] in
theorem textOf_eq (terms : List Term) :
    textOf terms = List.intercalate choice (terms.map Term.text) := by
  fun_induction textOf terms with
  | case1 => rfl
  | case2 term => simp [List.intercalate]
  | case3 term rest more ih =>
    obtain ⟨next, rest, rfl⟩ := List.exists_cons_of_ne_nil more
    rw [ih]
    simp [List.intercalate]

/-- **An escaped query** is the text of its terms. -/
theorem toList_fts5Escape (query : String) : (fts5Escape query).toList = textOf (terms query) := by
  unfold fts5Escape terms
  rw [textOf_eq, String.toList_intercalate]
  congr 1
  rw [List.map_filterMap, List.map_filterMap]
  refine List.filterMap_congr fun word _ => ?_
  have nothing : (String.ofList (word.toList.filter isWordChar)).isEmpty =
      (word.toList.filter isWordChar).isEmpty := by
    rw [Bool.eq_iff_iff, String.isEmpty_iff, List.isEmpty_iff, String.ofList_eq_empty_iff]
  unfold isWordChar at nothing
  unfold termOf isWordChar
  dsimp only
  rw [String.toList_ofList, nothing]
  split
  · simp [Term.text, quoted, Lexer.escape, choice]
    exact ⟨rfl, rfl⟩
  · split
    · simp [Term.text, quoted, Lexer.escape]
      exact ⟨rfl, rfl, rfl⟩
    · rfl

/-- **Each word that is searched for** has its term. -/
theorem word_terms (query : String) :
    (terms query).map Term.word = (keywords query).map String.toList := by
  unfold terms keywords
  have kept (word : String) : (termOf word).map Term.word =
      if word.toList.any isWordChar then some word.toList else none := by
    have some_ : word.toList.any isWordChar = !(word.toList.filter isWordChar).isEmpty := by
      rw [Bool.eq_iff_iff, List.any_eq_true, Bool.not_eq_true', List.isEmpty_eq_false_iff_exists_mem]
      simp only [List.mem_filter]
    unfold termOf
    dsimp only
    rw [some_]
    cases empty : (word.toList.filter isWordChar).isEmpty with
    | true =>
      rw [List.isEmpty_iff] at empty
      rw [empty]
      rfl
    | false =>
      split
      · rfl
      · rfl
  have each (words : List String) : words.filterMap (fun word => (termOf word).map Term.word) =
      (words.filter fun word => word.toList.any isWordChar).map String.toList := by
    induction words with
    | nil => rfl
    | cons first rest ih =>
      rw [List.filterMap_cons, kept, List.filter_cons, ih]
      by_cases some_ : first.toList.any isWordChar = true
      · rw [if_pos some_, if_pos some_]
        rfl
      · rw [if_neg some_, if_neg some_]
  rw [List.map_filterMap, each, List.filter_filter]
  congr 1
  exact List.filter_congr fun word _ => Bool.and_comm _ _

/-- Of the ASCII characters, the letters and the digits are alphanumeric. -/
def AsciiAlphanumeric : Prop :=
  ∀ c : Char, c.toNat < 0x80 → CharClasses.isAlphanumeric c = c.isAlphanum

theorem isBareword_of_isWordChar (ascii : AsciiAlphanumeric) {c : Char}
    (letter : isWordChar c = true) : isBareword c = true := by
  unfold isWordChar at letter
  unfold isBareword
  rcases Nat.lt_or_ge c.toNat 0x80 with low | high
  · rw [ascii c low] at letter
    rcases Bool.or_eq_true_iff.mp letter with letter | underscore
    · simp [letter]
    · simp [underscore]
  · simp [high]

theorem bare_terms (ascii : AsciiAlphanumeric) (query : String) :
    ∀ term ∈ terms query, term.Bare := by
  intro term member stem held
  obtain ⟨word, -, made⟩ := List.mem_filterMap.mp member
  unfold termOf at made
  dsimp only at made
  split at made
  · rename_i safe
    cases made
    cases held
    rw [Bool.and_eq_true, decide_eq_true_eq, Bool.not_eq_true', List.any_eq_false] at safe
    have some_ : word.toList.filter isWordChar ≠ [] := by
      intro none_
      rw [none_] at safe
      exact absurd safe.1 (by decide)
    have other (op : String) (among : op ∈ fts5Operators) :
        word.toList.filter isWordChar ≠ op.toList :=
      fun same => safe.2 op among (beq_iff_eq.mpr (congrArg (List.map Char.toLower) same))
    refine ⟨some_, fun c member => ?_, ?_⟩
    · exact isBareword_of_isWordChar ascii (List.mem_filter.mp member).2
    · unfold wordToken
      rw [if_neg, if_neg, if_neg, if_neg]
      · exact other "NEAR" (by decide)
      · exact other "NOT" (by decide)
      · exact other "OR" (by decide)
      · exact other "AND" (by decide)
  · split at made
    · cases made
      cases held
    · cases made

/-- A table of FTS5 answers every query that its grammar reads. -/
def AnswersQueries (fts : Fts5) : Prop :=
  ∀ query texts e, Reads query.toList e → ∃ found, fts.ranked query texts = .ok found

/-- A query is searched for by the words it is made of, and by nothing else in it: there is one
term for each word, of the word in quotes or a choice between it and the beginning of a word, and
the escaped query is empty or is read as the choice between the terms. -/
structure EscapesSafely (query : String) : Prop where
  terms : ∃ terms : List Term, terms.map Term.word = (keywords query).map String.toList ∧
    (∀ term ∈ terms, ∀ stem ∈ term.stem, stem = term.word.filter isWordChar) ∧
    (terms = [] → fts5Escape query = "") ∧
    (terms ≠ [] → (∃ e, Reads (fts5Escape query).toList e) ∧
      ∀ e, Reads (fts5Escape query).toList e → e.choices = some (terms.flatMap Term.parts))
  answered : ∀ fts : Fts5, AnswersQueries fts → ∀ (store : Fts5Store) (topK : Nat),
    ∃ found, store.search query topK = .ok found

theorem stem_terms (query : String) :
    ∀ term ∈ terms query, ∀ stem ∈ term.stem, stem = term.word.filter isWordChar := by
  intro term member stem held
  obtain ⟨word, -, made⟩ := List.mem_filterMap.mp member
  unfold termOf at made
  dsimp only at made
  split at made
  · cases made
    cases held
    rfl
  · split at made
    · cases made
      cases held
    · cases made

theorem nul_mem_terms (query : String) :
    (∃ term ∈ terms query, nul ∈ term.word) ↔ ∃ word ∈ keywords query, nul ∈ word.toList := by
  have words := word_terms query
  constructor
  · rintro ⟨term, member, ends⟩
    obtain ⟨word, among, same⟩ := List.mem_map.mp (words ▸ List.mem_map_of_mem member)
    exact ⟨word, among, same ▸ ends⟩
  · rintro ⟨word, member, ends⟩
    obtain ⟨term, among, same⟩ := List.mem_map.mp (words.symm ▸ List.mem_map_of_mem member)
    exact ⟨term, among, same ▸ ends⟩

/-- A query with a NUL in one of its words is not read. -/
theorem not_reads_of_nul (ascii : AsciiAlphanumeric) {query : String}
    (ends : ∃ word ∈ keywords query, nul ∈ word.toList) (e : Expr) :
    ¬ Reads (fts5Escape query).toList e := by
  rintro ⟨list, read, -⟩
  rw [toList_fts5Escape] at read
  have stops := run_textOf_nul (bare_terms ascii query) ((nul_mem_terms query).mpr ends) []
  exact nomatch stops.symm.trans read

theorem not_escapesSafely (ascii : AsciiAlphanumeric) {query : String}
    (ends : ∃ word ∈ keywords query, nul ∈ word.toList) : ¬ EscapesSafely query := by
  rintro ⟨⟨list, words, -, -, read⟩, -⟩
  have some_ : list ≠ [] := by
    rintro rfl
    obtain ⟨word, member, -⟩ := ends
    exact absurd (words ▸ List.mem_map_of_mem member) List.not_mem_nil
  obtain ⟨e, here⟩ := (read some_).1
  exact not_reads_of_nul ascii ends e here

/-- **A query is escaped safely** exactly if none of the words that are searched for contains a
NUL. -/
theorem escapesSafely_iff (ascii : AsciiAlphanumeric) (query : String) :
    EscapesSafely query ↔ ∀ word ∈ keywords query, nul ∉ word.toList := by
  constructor
  · exact fun safe word member ends => not_escapesSafely ascii ⟨word, member, ends⟩ safe
  · intro whole
    have bare := bare_terms ascii query
    have none_ : nul ∉ textOf (terms query) := by
      rw [nul_mem_textOf bare, nul_mem_terms]
      rintro ⟨word, member, ends⟩
      exact whole word member ends
    have empty (nothing : terms query = []) : fts5Escape query = "" := by
      rw [← String.toList_inj, toList_fts5Escape, nothing]
      rfl
    have read (some_ : terms query ≠ []) := reads_textOf some_ bare none_
    rw [← toList_fts5Escape] at read
    refine ⟨⟨terms query, word_terms query, stem_terms query, empty, read⟩, ?_⟩
    intro fts answers store topK
    unfold Fts5Store.search
    dsimp only
    split
    · exact ⟨_, rfl⟩
    · rename_i some_
      have present : terms query ≠ [] := fun nothing => some_ (by rw [empty nothing]; rfl)
      obtain ⟨e, here⟩ := (read present).1
      obtain ⟨found, answer⟩ := answers _ (store.rows.map Fts5Row.text) e here
      rw [answer]
      exact ⟨_, rfl⟩

end Queries

/-! ## A query of a user, and one with a NUL -/

namespace Sample

scoped instance asciiLetters : CharClasses := ⟨Char.isAlphanum⟩

end Sample

open Sample in
theorem near_miss_escaped : EscapesSafely "NEAR \"miss* OR" :=
  (escapesSafely_iff (fun _ _ => rfl) _).mpr (by decide +kernel)

open Sample in
/-- A word with a NUL leaves its quotes open. -/
theorem nul_ends_query : ¬ EscapesSafely "ab\x00cd" :=
  not_escapesSafely (fun _ _ => rfl) ⟨"ab\x00cd", by decide +kernel, by decide +kernel⟩

end EscapedQueries

end OpenMemory.Index
