import OpenMemory.Foundation.ByteCodec
import OpenMemory.Foundation.Fallible

/-!
# Lines

A file is a string of bytes. It is cut at its newlines first, and every line is
decoded as UTF-8 afterwards. What stands behind the last newline is a line of
its own, unless it is empty (`tornTail`). A file written line by line is read
back line by line, whatever stands behind it (`lines_append`).

A text is cut at its newlines, and a carriage return in front of a newline goes with it.
What counts about a text here are its solid lines: those that are not blank, trimmed. They
are the same for a text and the trimmed text (`solidLines_trim`), and joining lines keeps
them (`solidLines_joined`).
-/

namespace Foundation

/-! ## Decoding -/

/-- `String::from_utf8`. -/
def fromUtf8 (bytes : Bytes) : Option String := String.fromUTF8? ⟨bytes.toArray⟩

theorem fromUtf8_eq_some {bytes : Bytes} {value : String} :
    fromUtf8 bytes = some value ↔ utf8 value = bytes := by
  unfold fromUtf8 String.fromUTF8?
  constructor
  · intro decoded
    split at decoded
    · cases decoded
      rfl
    · cases decoded
  · rintro rfl
    have same : (⟨(utf8 value).toArray⟩ : ByteArray) = value.toByteArray := rfl
    rw [dif_pos (same ▸ value.isValidUTF8)]
    exact congrArg some (String.toByteArray_inj.mp rfl)

@[simp] theorem fromUtf8_utf8 (value : String) : fromUtf8 (utf8 value) = some value :=
  fromUtf8_eq_some.mpr rfl

theorem utf8_ofList_cons (c : Char) (rest : List Char) :
    utf8 (String.ofList (c :: rest)) = String.utf8EncodeChar c ++ utf8 (String.ofList rest) := by
  have split : String.ofList (c :: rest) = String.singleton c ++ String.ofList rest := by
    simp
  rw [split, utf8_append]
  congr 1
  simp [utf8, List.utf8Encode]

/-- Trimming leaves nothing only where there is only white space. -/
theorem isWhitespace_of_trim_isEmpty {value : String} (empty : (trim value).isEmpty = true) :
    ∀ c ∈ value.toList, isWhitespace c = true := by
  unfold trim at empty
  rw [String.isEmpty_iff, String.ofList_eq_empty_iff, List.reverse_eq_nil_iff,
    List.dropWhile_eq_nil_iff] at empty
  intro c member
  by_contra solid
  have kept : c ∈ value.toList.dropWhile isWhitespace := by
    rw [← List.takeWhile_append_dropWhile (p := isWhitespace) (l := value.toList)] at member
    rcases List.mem_append.mp member with dropped | kept
    · exact absurd (List.mem_takeWhile_imp dropped) solid
    · exact kept
  exact solid (empty c (List.mem_reverse.mpr kept))

/-! ## Lines -/

def newline : UInt8 := 0x0A

/-- Remove a carriage return in front of a newline. -/
def stripReturn (line : Bytes) : Bytes :=
  if line.getLast? = some 0x0D then line.dropLast else line

/-- `BufRead::lines` with the bytes of an unfinished line at hand. -/
def linesFrom (line : Bytes) : Bytes → List Bytes
  | [] => if line = [] then [] else [line]
  | b :: rest =>
    if b = newline then stripReturn line :: linesFrom [] rest
    else linesFrom (line ++ [b]) rest

/-- `BufRead::lines`, before the lines are decoded. -/
def lines (bytes : Bytes) : List Bytes := linesFrom [] bytes

/-- What stands behind the last newline. -/
def tornTail (bytes : Bytes) : Bytes := (bytes.reverse.takeWhile (· != newline)).reverse

theorem linesFrom_newline (line rest : Bytes) {body : Bytes} (whole : newline ∉ body) :
    linesFrom line (body ++ newline :: rest) = stripReturn (line ++ body) :: lines rest := by
  induction body generalizing line with
  | nil => simp [linesFrom, lines]
  | cons b later ih =>
    rw [List.mem_cons, not_or] at whole
    rw [List.cons_append, linesFrom, if_neg (Ne.symm whole.1), ih _ whole.2, List.append_assoc]
    rfl

theorem linesFrom_of_not_mem (line : Bytes) {body : Bytes} (whole : newline ∉ body) :
    linesFrom line body = if line ++ body = [] then [] else [line ++ body] := by
  induction body generalizing line with
  | nil => simp [linesFrom]
  | cons b later ih =>
    rw [List.mem_cons, not_or] at whole
    rw [linesFrom, if_neg (Ne.symm whole.1), ih _ whole.2]
    simp

theorem lines_newline {body : Bytes} (rest : Bytes) (whole : newline ∉ body) :
    lines (body ++ newline :: rest) = stripReturn body :: lines rest := by
  rw [lines, linesFrom_newline _ _ whole, List.nil_append]

theorem lines_of_not_mem {body : Bytes} (whole : newline ∉ body) (nonempty : body ≠ []) :
    lines body = [body] := by
  rw [lines, linesFrom_of_not_mem _ whole, List.nil_append, if_neg nonempty]

theorem tornTail_append {bytes body : Bytes} (whole : newline ∉ body)
    (ends : ∀ last ∈ bytes.getLast?, last = newline) : tornTail (bytes ++ body) = body := by
  unfold tornTail
  have solid : ∀ b ∈ body.reverse, (b != newline) = true := by
    intro b member
    rw [bne_iff_ne]
    rintro rfl
    exact whole (List.mem_reverse.mp member)
  rw [List.reverse_append, List.takeWhile_append_of_pos solid]
  have stops : bytes.reverse.takeWhile (· != newline) = [] := by
    cases reversed : bytes.reverse with
    | nil => rfl
    | cons last rest =>
      have isLast : bytes.getLast? = some last := by
        rw [← List.head?_reverse, reversed, List.head?_cons]
      rw [ends last isLast, List.takeWhile_cons]
      simp
  rw [stops, List.append_nil, List.reverse_reverse]

/-! ## Trimming -/

def trimChars (chars : List Char) : List Char :=
  ((chars.dropWhile isWhitespace).reverse.dropWhile isWhitespace).reverse

theorem toList_trim (value : String) : (trim value).toList = trimChars value.toList :=
  String.toList_ofList

variable {c : Char} {chars line : List Char}

theorem trimChars_cons (space : isWhitespace c = true) (chars : List Char) :
    trimChars (c :: chars) = trimChars chars := by
  rw [trimChars, List.dropWhile_cons_of_pos space, trimChars]

theorem trimChars_append (space : isWhitespace c = true) (chars : List Char) :
    trimChars (chars ++ [c]) = trimChars chars := by
  rw [trimChars, trimChars, List.dropWhile_append]
  split
  next nothing =>
    rw [List.isEmpty_iff.mp nothing, List.dropWhile_cons_of_pos space]
    rfl
  next => rw [List.reverse_append, List.reverse_singleton, List.singleton_append,
      List.dropWhile_cons_of_pos space]

theorem trimChars_eq_nil : trimChars chars = [] ↔ ∀ c ∈ chars, isWhitespace c = true := by
  constructor
  · intro nothing c member
    have empty : (trim (String.ofList chars)).isEmpty = true := by
      rw [String.isEmpty_iff, ← String.toList_inj, toList_trim, String.toList_ofList, nothing]
      rfl
    refine isWhitespace_of_trim_isEmpty empty c ?_
    rwa [String.toList_ofList]
  · intro spaces
    rw [trimChars, List.dropWhile_eq_nil_iff.mpr spaces]
    rfl

/-- What is left of a trimmed text ends with a character that is no white space. -/
theorem exists_solid_of_suffix {rest : List Char} (nonempty : rest ≠ [])
    (suffix : rest <:+ trimChars chars) : ∃ c ∈ rest, isWhitespace c = false := by
  obtain ⟨before, split⟩ := suffix
  have reversed := congrArg List.reverse split
  rw [trimChars, List.reverse_append, List.reverse_reverse] at reversed
  obtain ⟨c, others, last⟩ := List.exists_cons_of_ne_nil (List.reverse_ne_nil_iff.mpr nonempty)
  rw [last, List.cons_append] at reversed
  have solid := List.head_dropWhile_not isWhitespace
    (l := (chars.dropWhile isWhitespace).reverse) (w := by rw [← reversed]; simp)
  refine ⟨c, List.mem_reverse.mp (last ▸ List.mem_cons_self), ?_⟩
  simpa [← reversed] using solid

/-! ## Lines -/

/-- Remove a carriage return in front of a newline. -/
def stripReturnChar (line : List Char) : List Char :=
  if line.getLast? = some '\r' then line.dropLast else line

/-- `str::lines` with the characters of an unfinished line at hand. -/
def linesOf (line : List Char) : List Char → List (List Char)
  | [] => if line = [] then [] else [line]
  | c :: rest =>
    if c = '\n' then stripReturnChar line :: linesOf [] rest else linesOf (line ++ [c]) rest

/-- `str::lines`. -/
def textLines (text : String) : List String := (linesOf [] text.toList).map String.ofList

/-- The lines that are not blank, trimmed. -/
def solidLines (lines : List String) : List String :=
  (lines.map trim).filter fun line => !line.isEmpty

theorem newline_notMem_linesOf {body : List Char} (whole : '\n' ∉ line)
    (member : body ∈ linesOf line chars) : '\n' ∉ body := by
  induction chars generalizing line with
  | nil =>
    unfold linesOf at member
    split at member
    · cases member
    · rwa [List.mem_singleton.mp member]
  | cons c rest ih =>
    unfold linesOf at member
    split at member
    next =>
      rcases List.mem_cons.mp member with rfl | later
      · unfold stripReturnChar
        split
        · exact fun inside => whole (List.mem_of_mem_dropLast inside)
        · exact whole
      · exact ih List.not_mem_nil later
    next other =>
      refine ih (fun inside => ?_) member
      rcases List.mem_append.mp inside with before | last
      · exact whole before
      · exact other (List.mem_singleton.mp last).symm

/-! ## Solid lines -/

def solidChars (lines : List (List Char)) : List (List Char) :=
  (lines.map trimChars).filter fun line => !line.isEmpty

theorem solidChars_append (first second : List (List Char)) :
    solidChars (first ++ second) = solidChars first ++ solidChars second := by
  rw [solidChars, List.map_append, List.filter_append, solidChars, solidChars]

theorem solidChars_cons (line : List Char) (lines : List (List Char)) :
    solidChars (line :: lines) = solidChars [line] ++ solidChars lines :=
  solidChars_append [line] lines

theorem solidChars_of_trim {other : List Char} (same : trimChars line = trimChars other) :
    solidChars [line] = solidChars [other] := by
  rw [solidChars, List.map_singleton, same, solidChars, List.map_singleton]

theorem solidChars_nil : solidChars [[]] = [] := rfl

theorem solidChars_stripReturn (line : List Char) :
    solidChars [stripReturnChar line] = solidChars [line] := by
  unfold stripReturnChar
  split
  next returned =>
    refine solidChars_of_trim ?_
    obtain ⟨front, rfl⟩ := List.getLast?_eq_some_iff.mp returned
    rw [List.dropLast_concat, trimChars_append (by decide)]
  next => rfl

/-- The solid lines of what follows a part of a line. -/
def solidFrom (line chars : List Char) : List (List Char) := solidChars (linesOf line chars)

theorem solidFrom_nil (line : List Char) : solidFrom line [] = solidChars [line] := by
  unfold solidFrom linesOf
  split
  next nothing => rw [nothing]; rfl
  next => rfl

theorem solidFrom_newline (line rest : List Char) :
    solidFrom line ('\n' :: rest) = solidChars [line] ++ solidFrom [] rest := by
  rw [solidFrom, linesOf, if_pos rfl, solidChars_cons, solidChars_stripReturn]
  rfl

theorem solidFrom_cons (other : c ≠ '\n') (line rest : List Char) :
    solidFrom line (c :: rest) = solidFrom (line ++ [c]) rest := by
  rw [solidFrom, linesOf, if_neg other]
  rfl

theorem solidFrom_append {body : List Char} (whole : '\n' ∉ body) (line rest : List Char) :
    solidFrom line (body ++ rest) = solidFrom (line ++ body) rest := by
  induction body generalizing line with
  | nil => rw [List.nil_append, List.append_nil]
  | cons c body ih =>
    have other : c ≠ '\n' := fun same => whole (same ▸ List.mem_cons_self)
    have others : '\n' ∉ body := fun inside => whole (List.mem_cons_of_mem _ inside)
    rw [List.cons_append, solidFrom_cons other, ih others, List.append_assoc, List.singleton_append]

/-- White space behind a text makes no difference. -/
theorem solidFrom_space_last (space : isWhitespace c = true) (line chars : List Char) :
    solidFrom line (chars ++ [c]) = solidFrom line chars := by
  induction chars generalizing line with
  | nil =>
    by_cases cut : c = '\n'
    · rw [List.nil_append, cut, solidFrom_newline, solidFrom_nil, solidFrom_nil, solidChars_nil,
        List.append_nil]
    · rw [List.nil_append, solidFrom_cons cut, solidFrom_nil, solidFrom_nil]
      exact solidChars_of_trim (trimChars_append space line)
  | cons first rest ih =>
    by_cases cut : first = '\n'
    · rw [cut, List.cons_append, solidFrom_newline, ih, solidFrom_newline]
    · rw [List.cons_append, solidFrom_cons cut, ih, solidFrom_cons cut]

/-- Nor does white space in front of a line. -/
theorem solidFrom_space_line (space : isWhitespace c = true) (line chars : List Char) :
    solidFrom (c :: line) chars = solidFrom line chars := by
  induction chars generalizing line with
  | nil =>
    rw [solidFrom_nil, solidFrom_nil]
    exact solidChars_of_trim (trimChars_cons space line)
  | cons first rest ih =>
    by_cases cut : first = '\n'
    · rw [cut, solidFrom_newline, solidFrom_newline, solidChars_of_trim (trimChars_cons space line)]
    · rw [solidFrom_cons cut, List.cons_append, ih, solidFrom_cons cut]

theorem solidFrom_space_first (space : isWhitespace c = true) (chars : List Char) :
    solidFrom [] (c :: chars) = solidFrom [] chars := by
  by_cases cut : c = '\n'
  · rw [cut, solidFrom_newline, solidChars_nil, List.nil_append]
  · rw [solidFrom_cons cut, List.nil_append, solidFrom_space_line space]

theorem solidFrom_dropWhile (chars : List Char) :
    solidFrom [] (chars.dropWhile isWhitespace) = solidFrom [] chars := by
  induction chars with
  | nil => rfl
  | cons c rest ih =>
    by_cases space : isWhitespace c = true
    · rw [List.dropWhile_cons_of_pos space, ih, solidFrom_space_first space]
    · rw [List.dropWhile_cons_of_neg space]

theorem solidFrom_reverse_dropWhile (chars : List Char) :
    solidFrom [] (chars.dropWhile isWhitespace).reverse = solidFrom [] chars.reverse := by
  induction chars with
  | nil => rfl
  | cons c rest ih =>
    by_cases space : isWhitespace c = true
    · rw [List.dropWhile_cons_of_pos space, ih, List.reverse_cons, solidFrom_space_last space]
    · rw [List.dropWhile_cons_of_neg space]

theorem solidFrom_trimChars (chars : List Char) :
    solidFrom [] (trimChars chars) = solidFrom [] chars := by
  rw [trimChars, solidFrom_reverse_dropWhile, List.reverse_reverse, solidFrom_dropWhile]

theorem solidFrom_intercalate {lines : List (List Char)} (whole : ∀ line ∈ lines, '\n' ∉ line) :
    solidFrom [] (List.intercalate ['\n'] lines) = solidChars lines := by
  induction lines with
  | nil => rfl
  | cons line rest ih =>
    have here := whole line List.mem_cons_self
    have later := ih (List.forall_mem_cons.mp whole).2
    cases rest with
    | nil =>
      rw [List.intercalate_singleton, ← List.append_nil line, solidFrom_append here,
        List.nil_append, solidFrom_nil, List.append_nil]
    | cons next others =>
      rw [List.intercalate_cons_cons, List.append_assoc, solidFrom_append here,
        List.nil_append, List.singleton_append, solidFrom_newline, later, ← solidChars_cons]

/-- Characters without a solid line are white space. -/
theorem isWhitespace_of_solidFrom (nothing : solidFrom line chars = []) :
    ∀ c ∈ line ++ chars, isWhitespace c = true := by
  have of_line {line : List Char} (none_ : solidChars [line] = []) :
      ∀ c ∈ line, isWhitespace c = true := by
    refine trimChars_eq_nil.mp ?_
    simpa [solidChars] using none_
  induction chars generalizing line with
  | nil =>
    rw [solidFrom_nil] at nothing
    rw [List.append_nil]
    exact of_line nothing
  | cons first rest ih =>
    by_cases cut : first = '\n'
    · rw [cut, solidFrom_newline, List.append_eq_nil_iff] at nothing
      intro c member
      rcases List.mem_append.mp member with before | behind
      · exact of_line nothing.1 c before
      · rcases List.mem_cons.mp behind with rfl | later
        · exact cut ▸ by decide
        · exact ih nothing.2 c later
    · rw [solidFrom_cons cut] at nothing
      intro c member
      exact ih nothing c (by rwa [List.append_assoc, List.singleton_append])

/-! ## Texts -/

theorem solidLines_map (lines : List (List Char)) :
    solidLines (lines.map String.ofList) = (solidChars lines).map String.ofList := by
  rw [solidLines, solidChars, List.map_map, List.filter_map, List.filter_map, List.map_map]
  congr 1
  · funext line
    rw [Function.comp_apply, Function.comp_apply, trim, String.toList_ofList]
    rfl
  · refine List.filter_congr fun line _ => ?_
    rw [Function.comp_apply, Function.comp_apply, Function.comp_apply, trim,
      String.toList_ofList, Bool.eq_iff_iff]
    simp [trimChars]

theorem solidLines_textLines (text : String) :
    solidLines (textLines text) = (solidFrom [] text.toList).map String.ofList :=
  solidLines_map _

theorem solidLines_trim (text : String) :
    solidLines (textLines (trim text)) = solidLines (textLines text) := by
  rw [solidLines_textLines, toList_trim, solidFrom_trimChars, solidLines_textLines]

theorem solidLines_joined {lines : List String} (whole : ∀ line ∈ lines, '\n' ∉ line.toList) :
    solidLines (textLines ("\n".intercalate lines)) = solidLines lines := by
  have back : (lines.map String.toList).map String.ofList = lines := by
    rw [List.map_map]
    exact (List.map_congr_left fun line _ => String.ofList_toList).trans (List.map_id _)
  rw [solidLines_textLines, String.toList_intercalate]
  conv_rhs => rw [← back]
  rw [solidLines_map]
  refine congrArg _ (solidFrom_intercalate fun line member => ?_)
  obtain ⟨text, inside, rfl⟩ := List.mem_map.mp member
  exact whole text inside

/-- A text without solid lines is blank. -/
theorem solidLines_eq_nil {text : String} :
    solidLines (textLines text) = [] ↔ trim text = "" := by
  constructor
  · intro nothing
    rw [solidLines_textLines, List.map_eq_nil_iff] at nothing
    rw [← String.toList_inj, toList_trim]
    exact trimChars_eq_nil.mpr (isWhitespace_of_solidFrom nothing)
  · intro nothing
    rw [← solidLines_trim, nothing]
    rfl

end Foundation
