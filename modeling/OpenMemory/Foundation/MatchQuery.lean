import Mathlib

/-!
# Queries of a full-text table

A query of an FTS5 table is read in two passes. A lexer cuts the text into tokens: strings in
double quotes, in which a quotation mark is written twice, barewords, and the marks of the
grammar. Like all text that is handed to SQLite as an expression it ends at its first NUL. The
grammar then builds an expression of the tokens: phrases with an optional star, groups of phrases
that are near to each other, filters of columns, and the operators, of which NOT binds closer than
AND and AND closer than OR, and an AND that is not written closer than all of them.

A query in which no mark of the grammar occurs but OR and parentheses is read as a choice between
its words and as nothing else.
-/

namespace Foundation

namespace MatchQuery

/-! ## Tokens -/

/-- A string in quotes, or a bareword. -/
inductive Word where
  | string (text : List Char)
  | bareword (text : List Char)
  deriving DecidableEq

inductive Token where
  | word (word : Word)
  | and
  | or
  | not
  | near
  | leftParen
  | rightParen
  | leftBrace
  | rightBrace
  | comma
  | colon
  | plus
  | star
  | caret
  | minus
  deriving DecidableEq

/-- The quotation mark that strings stand between. -/
def quotes : Char := Char.ofNat 0x22

def nul : Char := Char.ofNat 0

def isBareword (c : Char) : Bool :=
  decide (0x80 ≤ c.toNat) || c.isAlphanum || c.toNat == 0x5F || c.toNat == 0x1A

def isSpace (c : Char) : Bool := c == ' ' || c == '\t' || c == '\n' || c == '\r'

/-- The operators are written in capitals. -/
def wordToken (text : List Char) : Token :=
  if text = ['A', 'N', 'D'] then .and
  else if text = ['O', 'R'] then .or
  else if text = ['N', 'O', 'T'] then .not
  else if text = ['N', 'E', 'A', 'R'] then .near
  else .word (.bareword text)

def markToken (c : Char) : Option Token :=
  match c with
  | '(' => some .leftParen
  | ')' => some .rightParen
  | '\x7b' => some .leftBrace
  | '\x7d' => some .rightBrace
  | ',' => some .comma
  | ':' => some .colon
  | '+' => some .plus
  | '*' => some .star
  | '^' => some .caret
  | '-' => some .minus
  | _ => none

/-! ## The lexer -/

/-- Where the lexer stands: between tokens, within a string, after a quotation mark within a
string, or within a bareword. -/
inductive Mode where
  | between
  | quoted (read : List Char)
  | closing (read : List Char)
  | bare (read : List Char)

structure Lexer where
  mode : Mode
  tokens : List Token

namespace Lexer

def start : Lexer := ⟨.between, []⟩

/-- A character that follows the end of a token. -/
def readBetween (tokens : List Token) (c : Char) : Option Lexer :=
  if c = quotes then some ⟨.quoted [], tokens⟩
  else if isBareword c then some ⟨.bare [c], tokens⟩
  else if isSpace c then some ⟨.between, tokens⟩
  else (markToken c).map fun token => ⟨.between, tokens ++ [token]⟩

def read (lexer : Lexer) (c : Char) : Option Lexer :=
  match lexer.mode with
  | .between => readBetween lexer.tokens c
  | .quoted text =>
    if c = quotes then some ⟨.closing text, lexer.tokens⟩
    else some ⟨.quoted (text ++ [c]), lexer.tokens⟩
  | .closing text =>
    if c = quotes then some ⟨.quoted (text ++ [quotes]), lexer.tokens⟩
    else readBetween (lexer.tokens ++ [.word (.string text)]) c
  | .bare text =>
    if isBareword c then some ⟨.bare (text ++ [c]), lexer.tokens⟩
    else readBetween (lexer.tokens ++ [wordToken text]) c

/-- A text must not end within a string. -/
def finish (lexer : Lexer) : Option (List Token) :=
  match lexer.mode with
  | .between => some lexer.tokens
  | .quoted _ => none
  | .closing text => some (lexer.tokens ++ [.word (.string text)])
  | .bare text => some (lexer.tokens ++ [wordToken text])

def run (lexer : Lexer) (text : List Char) : Option Lexer := text.foldlM read lexer

theorem run_append (lexer : Lexer) (text rest : List Char) :
    lexer.run (text ++ rest) = (lexer.run text).bind fun lexer => lexer.run rest :=
  List.foldlM_append

theorem run_singleton (lexer : Lexer) (c : Char) : lexer.run [c] = lexer.read c := by
  unfold run
  rw [List.foldlM_cons]
  exact bind_pure _

variable {text : List Char}

theorem run_append_of_eq {lexer after : Lexer} (held : lexer.run text = some after)
    (rest : List Char) : lexer.run (text ++ rest) = after.run rest := by
  rw [run_append, held]
  rfl

/-- A text in which each quotation mark is written twice. -/
def escape (text : List Char) : List Char :=
  text.flatMap fun c => if c = quotes then [quotes, quotes] else [c]

/-- Within a string an escaped text is read as it was. -/
theorem run_escape (text read : List Char) (tokens : List Token) :
    run ⟨.quoted read, tokens⟩ (escape text) = some ⟨.quoted (read ++ text), tokens⟩ := by
  induction text generalizing read with
  | nil =>
    rw [List.append_nil]
    rfl
  | cons c rest ih =>
    have here : run ⟨.quoted read, tokens⟩ (if c = quotes then [quotes, quotes] else [c]) =
        some ⟨.quoted (read ++ [c]), tokens⟩ := by
      by_cases mark : c = quotes
      · rw [if_pos mark, mark]
        rfl
      · rw [if_neg mark]
        rw [run_singleton]
        exact if_neg mark
    rw [escape, List.flatMap_cons, run_append_of_eq here]
    change run _ (escape rest) = _
    rw [ih, List.append_assoc]
    rfl

/-- A bareword is read to its end. -/
theorem run_bare (bare : ∀ c ∈ text, isBareword c = true) (read : List Char)
    (tokens : List Token) : run ⟨.bare read, tokens⟩ text = some ⟨.bare (read ++ text), tokens⟩ := by
  induction text generalizing read with
  | nil =>
    rw [List.append_nil]
    rfl
  | cons c rest ih =>
    have here : run ⟨.bare read, tokens⟩ [c] = some ⟨.bare (read ++ [c]), tokens⟩ := by
      rw [run_singleton]
      exact if_pos (bare c List.mem_cons_self)
    change run _ ([c] ++ rest) = _
    rw [run_append_of_eq here, ih (List.forall_mem_cons.mp bare).2, List.append_assoc]
    rfl

theorem run_word {c : Char} (bare : ∀ each ∈ c :: text, isBareword each = true)
    (tokens : List Token) : run ⟨.between, tokens⟩ (c :: text) = some ⟨.bare (c :: text), tokens⟩ := by
  have first := bare c List.mem_cons_self
  have apart : c ≠ quotes := by
    rintro rfl
    exact absurd first (by decide)
  have here : run ⟨.between, tokens⟩ [c] = some ⟨.bare [c], tokens⟩ := by
    rw [run_singleton]
    exact (if_neg apart).trans (if_pos first)
  change run _ ([c] ++ text) = _
  rw [run_append_of_eq here, run_bare fun c member => bare c (List.mem_cons_of_mem _ member)]
  rfl

end Lexer

def tokens (text : List Char) : Option (List Token) :=
  (Lexer.start.run (text.takeWhile (· ≠ nul))).bind Lexer.finish

/-! ## The grammar -/

/-- A word of a phrase, and whether it may be continued. -/
structure Part where
  word : Word
  starred : Bool

inductive Expr where
  | phrase (first : Bool) (parts : List Part)
  | near (phrases : List (List Part)) (distance : Option (List Char))
  | columns (others : Bool) (names : List Word) (within : Expr)
  | and (left right : Expr)
  | or (left right : Expr)
  | not (left right : Expr)

inductive IsPart : List Token → Part → Prop
  | plain (word : Word) : IsPart [.word word] ⟨word, false⟩
  | starred (word : Word) : IsPart [.word word, .star] ⟨word, true⟩

inductive IsPhrase : List Token → List Part → Prop
  | part {tokens : List Token} {part : Part} : IsPart tokens part → IsPhrase tokens [part]
  | plus {tokens next : List Token} {parts : List Part} {part : Part} : IsPhrase tokens parts →
      IsPart next part → IsPhrase (tokens ++ .plus :: next) (parts ++ [part])

inductive ArePhrases : List Token → List (List Part) → Prop
  | phrase {tokens : List Token} {phrase : List Part} : IsPhrase tokens phrase →
      ArePhrases tokens [phrase]
  | more {tokens next : List Token} {phrases : List (List Part)} {phrase : List Part} :
      ArePhrases tokens phrases → IsPhrase next phrase →
      ArePhrases (tokens ++ next) (phrases ++ [phrase])

inductive AreColumns : List Token → List Word → Prop
  | name (word : Word) : AreColumns [.word word] [word]
  | names {words : List Word} : words ≠ [] →
      AreColumns (.leftBrace :: words.map Token.word ++ [.rightBrace]) words

/-- How closely the parts of a query are bound to each other. -/
inductive Level where
  | base
  | unit
  | adjacent
  | negated
  | both
  | either

inductive IsQuery : Level → List Token → Expr → Prop
  | phrase {tokens : List Token} {parts : List Part} : IsPhrase tokens parts →
      IsQuery .base tokens (.phrase false parts)
  | first {tokens : List Token} {parts : List Part} : IsPhrase tokens parts →
      IsQuery .base (.caret :: tokens) (.phrase true parts)
  | near {tokens : List Token} {phrases : List (List Part)} : ArePhrases tokens phrases →
      IsQuery .base (.near :: .leftParen :: tokens ++ [.rightParen]) (.near phrases none)
  | within {tokens : List Token} {phrases : List (List Part)} {distance : List Char} :
      ArePhrases tokens phrases → (∀ c ∈ distance, c.isDigit = true) →
      IsQuery .base (.near :: .leftParen :: tokens ++
        [.comma, .word (.bareword distance), .rightParen]) (.near phrases (some distance))
  | group {tokens : List Token} {e : Expr} : IsQuery .either tokens e →
      IsQuery .base (.leftParen :: tokens ++ [.rightParen]) e
  | base {tokens : List Token} {e : Expr} : IsQuery .base tokens e → IsQuery .unit tokens e
  | columns {names tokens : List Token} {words : List Word} {e : Expr} : AreColumns names words →
      IsQuery .base tokens e → IsQuery .unit (names ++ .colon :: tokens) (.columns false words e)
  | others {names tokens : List Token} {words : List Word} {e : Expr} : AreColumns names words →
      IsQuery .base tokens e →
      IsQuery .unit (.minus :: names ++ .colon :: tokens) (.columns true words e)
  | unit {tokens : List Token} {e : Expr} : IsQuery .unit tokens e → IsQuery .adjacent tokens e
  | adjacent {left right : List Token} {l r : Expr} : IsQuery .adjacent left l →
      IsQuery .unit right r → IsQuery .adjacent (left ++ right) (.and l r)
  | plain {tokens : List Token} {e : Expr} : IsQuery .adjacent tokens e →
      IsQuery .negated tokens e
  | not {left right : List Token} {l r : Expr} : IsQuery .negated left l →
      IsQuery .adjacent right r → IsQuery .negated (left ++ .not :: right) (.not l r)
  | negated {tokens : List Token} {e : Expr} : IsQuery .negated tokens e → IsQuery .both tokens e
  | and {left right : List Token} {l r : Expr} : IsQuery .both left l →
      IsQuery .negated right r → IsQuery .both (left ++ .and :: right) (.and l r)
  | both {tokens : List Token} {e : Expr} : IsQuery .both tokens e → IsQuery .either tokens e
  | or {left right : List Token} {l r : Expr} : IsQuery .either left l →
      IsQuery .both right r → IsQuery .either (left ++ .or :: right) (.or l r)

/-- An expression that the grammar builds of a text. -/
def Reads (text : List Char) (e : Expr) : Prop :=
  ∃ list, tokens text = some list ∧ IsQuery .either list e

/-! ## Choices -/

/-- The words that an expression is a choice between, if it is one. -/
def Expr.choices : Expr → Option (List Part)
  | .phrase false [part] => some [part]
  | .or left right => left.choices.bind fun words => right.choices.map fun more => words ++ more
  | _ => none

/-- The marks that a choice is written with. -/
inductive Token.Plain : Token → Prop
  | word (word : Word) : Plain (.word word)
  | or : Plain .or
  | leftParen : Plain .leftParen
  | rightParen : Plain .rightParen
  | star : Plain .star

/-- A token that a part of a query begins with. -/
def Token.opens : Token → Bool
  | .word _ | .near | .leftParen | .leftBrace | .caret | .minus => true
  | _ => false

/-- A token that a part of a query ends with. -/
def Token.closes : Token → Bool
  | .word _ | .star | .rightParen => true
  | _ => false

/-- A choice has no two parts side by side. -/
def Apart (left right : Token) : Prop := ¬ (left.closes = true ∧ right.opens = true)

def parts : List Token → List Part
  | .word word :: .star :: rest => ⟨word, true⟩ :: parts rest
  | .word word :: rest => ⟨word, false⟩ :: parts rest
  | _ :: rest => parts rest
  | [] => []

variable {list : List Token}

theorem parts_append (rest : List Token) (fresh : rest.head? ≠ some .star) :
    parts (list ++ rest) = parts list ++ parts rest := by
  fun_induction parts list with
  | case1 word list ih => exact congrArg _ ih
  | case2 word list apart ih =>
    have follows : ∀ more, list ++ rest ≠ .star :: more := by
      intro more same
      cases list with
      | nil =>
        rw [List.nil_append] at same
        exact fresh (same ▸ rfl)
      | cons first list => exact apart list (congrArg (· :: list) (List.cons.inj same).1)
    rw [List.cons_append, parts, ih, List.cons_append]
    exact follows
  | case3 token list apart bare ih =>
    rw [List.cons_append, parts, ih]
    · exact fun word more same _ => bare word same
    · exact bare
  | case4 => rfl

/-- The tokens of a part begin as a part does. -/
def Opens (list : List Token) : Prop := ∃ first ∈ list.head?, first.opens = true

def Closes (list : List Token) : Prop := ∃ last ∈ list.getLast?, last.closes = true

theorem Opens.append {list : List Token} (opens : Opens list) (rest : List Token) :
    Opens (list ++ rest) := by
  obtain ⟨first, held, is⟩ := opens
  refine ⟨first, ?_, is⟩
  rw [List.head?_append, Option.mem_def.mp held]
  rfl

theorem Closes.append {list : List Token} (closes : Closes list) (rest : List Token) :
    Closes (rest ++ list) := by
  obtain ⟨last, held, is⟩ := closes
  refine ⟨last, ?_, is⟩
  rw [List.getLast?_append, Option.mem_def.mp held]
  rfl

theorem IsPart.bounded {part : Part} (built : IsPart list part) : Opens list ∧ Closes list := by
  cases built with
  | plain word => exact ⟨⟨_, rfl, rfl⟩, ⟨_, rfl, rfl⟩⟩
  | starred word => exact ⟨⟨_, rfl, rfl⟩, ⟨_, rfl, rfl⟩⟩

theorem IsPhrase.bounded {words : List Part} (built : IsPhrase list words) :
    Opens list ∧ Closes list := by
  induction built with
  | part part => exact part.bounded
  | plus phrase part ih =>
    exact ⟨ih.1.append _, (part.bounded.2.append [.plus]).append _⟩

theorem AreColumns.opens {words : List Word} (built : AreColumns list words) : Opens list := by
  cases built with
  | name word => exact ⟨_, rfl, rfl⟩
  | names some_ => exact ⟨_, rfl, rfl⟩

/-- A query begins and ends with tokens that parts begin and end with. -/
theorem IsQuery.bounded {level : Level} {e : Expr}
    (built : IsQuery level list e) : Opens list ∧ Closes list := by
  induction built with
  | phrase phrase => exact phrase.bounded
  | first phrase => exact ⟨⟨_, rfl, rfl⟩, phrase.bounded.2.append [.caret]⟩
  | near phrases => exact ⟨⟨_, rfl, rfl⟩, Closes.append ⟨_, rfl, rfl⟩ _⟩
  | within phrases digits => exact ⟨⟨_, rfl, rfl⟩, Closes.append ⟨_, rfl, rfl⟩ _⟩
  | group query ih => exact ⟨⟨_, rfl, rfl⟩, Closes.append ⟨_, rfl, rfl⟩ _⟩
  | base query ih => exact ih
  | columns names query ih =>
    exact ⟨names.opens.append _, (ih.2.append [.colon]).append _⟩
  | others names query ih => exact ⟨⟨_, rfl, rfl⟩, (ih.2.append [.colon]).append _⟩
  | unit query ih => exact ih
  | adjacent left right ihl ihr => exact ⟨ihl.1.append _, ihr.2.append _⟩
  | plain query ih => exact ih
  | not left right ihl ihr => exact ⟨ihl.1.append _, (ihr.2.append [.not]).append _⟩
  | negated query ih => exact ih
  | and left right ihl ihr => exact ⟨ihl.1.append _, (ihr.2.append [.and]).append _⟩
  | both query ih => exact ih
  | or left right ihl ihr => exact ⟨ihl.1.append _, (ihr.2.append [.or]).append _⟩

/-- A phrase in which no plus occurs is one word. -/
theorem IsPhrase.parts_eq {words : List Part} (built : IsPhrase list words)
    (plain : ∀ token ∈ list, token.Plain) : ∃ part, words = [part] ∧ parts list = [part] := by
  cases built with
  | part part =>
    cases part with
    | plain word => exact ⟨_, rfl, rfl⟩
    | starred word => exact ⟨_, rfl, rfl⟩
  | plus phrase part => exact absurd (plain .plus (List.mem_append_right _ List.mem_cons_self)) nofun

/-- **A query of plain tokens** with no two parts side by side is a choice between its words. -/
theorem IsQuery.choices_eq {level : Level} {e : Expr}
    (built : IsQuery level list e) (plain : ∀ token ∈ list, token.Plain)
    (apart : list.IsChain Apart) : e.choices = some (parts list) := by
  induction built with
  | phrase phrase =>
    obtain ⟨part, rfl, same⟩ := phrase.parts_eq plain
    rw [same]
    rfl
  | first phrase => exact absurd (plain .caret List.mem_cons_self) nofun
  | near phrases => exact absurd (plain .near List.mem_cons_self) nofun
  | within phrases digits => exact absurd (plain .near List.mem_cons_self) nofun
  | @group list e query ih =>
    have inner := ih (fun token member => plain token
      (List.mem_cons_of_mem _ (List.mem_append_left _ member))) apart.tail.left_of_append
    change e.choices = some (parts (list ++ [.rightParen]))
    rw [inner, parts_append [.rightParen] (by decide)]
    exact congrArg some (List.append_nil _).symm
  | base query ih => exact ih plain apart
  | columns names query ih =>
    exact absurd (plain .colon (List.mem_append_right _ List.mem_cons_self)) nofun
  | others names query ih => exact absurd (plain .minus List.mem_cons_self) nofun
  | unit query ih => exact ih plain apart
  | adjacent left right ihl ihr =>
    -- the last token of the one part and the first of the other stand side by side
    obtain ⟨last, ends, closes⟩ := left.bounded.2
    obtain ⟨first, begins, opens⟩ := right.bounded.1
    exact absurd ⟨closes, opens⟩ ((List.isChain_append.mp apart).2.2 last ends first begins)
  | plain query ih => exact ih plain apart
  | not left right ihl ihr =>
    exact absurd (plain .not (List.mem_append_right _ List.mem_cons_self)) nofun
  | negated query ih => exact ih plain apart
  | and left right ihl ihr =>
    exact absurd (plain .and (List.mem_append_right _ List.mem_cons_self)) nofun
  | both query ih => exact ih plain apart
  | @or left right l r leftQuery rightQuery ihl ihr =>
    have chosen := ihl (fun token member => plain token (List.mem_append_left _ member))
      apart.left_of_append
    have others := ihr (fun token member => plain token
      (List.mem_append_right _ (List.mem_cons_of_mem _ member))) apart.right_of_append.tail
    rw [parts_append (.or :: right) nofun]
    change (l.choices.bind fun words => r.choices.map fun more => words ++ more) = _
    rw [chosen, others]
    rfl

end MatchQuery

end Foundation
