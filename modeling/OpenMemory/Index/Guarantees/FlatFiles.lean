import OpenMemory.Index.FlatFile

/-!
# The flat file format

What an index writes is read back, and refused when it is cut short, as long as the length of
the vectors fits in its field. What anything else writes is another matter: the loader takes
the sizes of its buffers from the file, before it knows that the file is as long as it says. So
a file of sixteen bytes can ask for all memory, or make the loader panic.
-/

namespace OpenMemory.Index.FlatVectorIndex

open Foundation OpenMemory.Graph

variable {path label : String} {data bytes rest : Bytes} {size dim i : Nat} {asked : List Nat}

/-! ## Files cut short -/

/-- The error of a file that is not a whole index. -/
def IsCorrupt (path : String) (error : IndexError) : Prop :=
  ∃ detail, error = .corrupt path detail

theorem refuses_readExact {encoded : Bytes} {width : Nat} (length : encoded.length = width) :
    Refuses (IsCorrupt path) (readExact path width label) encoded :=
  .takeBytes ⟨_, rfl⟩ length

theorem refuses_readNumber (width n : Nat) :
    Refuses (IsCorrupt path) (readNumber path width label) (leBytes width n) :=
  (refuses_readExact (leBytes_length width n)).map (reads_readExact (leBytes_length width n))

variable {value : String} {entry : StoredEntry} {body : Bytes} {count : Nat}
  {index : FlatVectorIndex}

theorem refuses_readString (short : (utf8 value).length < 2 ^ 32) :
    Refuses (IsCorrupt path) (readString path label) (writeString value) := by
  refine (refuses_readNumber _ _).bind (reads_readNumber (show _ < 256 ^ 4 from short)) ?_
  exact (refuses_readExact rfl).last (reads_readExact rfl)

theorem refuses_readFloat (x : Float32Bits) :
    Refuses (IsCorrupt path) (readFloat path label) (writeFloat x) :=
  (refuses_readNumber _ _).map (reads_readNumber (show x.toBits.toNat < 256 ^ 4 from x.toBits.isLt))

theorem refuses_readEntry (uri : (utf8 entry.uri).length < 2 ^ 32)
    (text : (utf8 entry.text).length < 2 ^ 32) (i : Nat) :
    Refuses (IsCorrupt path) (readEntry path entry.vector.length i) (writeEntry entry) := by
  refine (refuses_readString uri).bind (reads_readString uri)
    ((refuses_readString text).bind (reads_readString text) ?_)
  refine (refuses_readNumber _ _).bind
    (reads_readNumber (show _ < 256 ^ 4 from entry.chunkIndex.toNat_lt)) ?_
  exact (Refuses.each (fun _ _ _ => reads_readFloat) (fun _ x _ => refuses_readFloat x) 0).map
    (Reads.each (fun _ _ _ => reads_readFloat) 0)

theorem refuses_readEntries {entries : List StoredEntry} (uniform : Uniform entries)
    (fits : Fits entries) : Refuses (IsCorrupt path) (readEntries path) (fileBytes entries) := by
  obtain ⟨dim, positive, same⟩ := uniform
  unfold readEntries fileBytes
  refine (refuses_readExact rfl).bind (reads_readExact (show magic.length = 4 from rfl)) ?_
  dsimp only
  rw [if_neg (not_not.mpr rfl)]
  refine (refuses_readNumber _ _).bind (reads_readNumber (show _ < 256 ^ 8 from fits.count)) ?_
  cases entries with
  | nil =>
    exact (refuses_readNumber _ _).bind (reads_readNumber (show 0 < 256 ^ 4 by decide)) .nil
  | cons first others =>
    have length := same first List.mem_cons_self
    have small := fits.vector first List.mem_cons_self
    refine (refuses_readNumber _ _).bind
      (reads_readNumber (show dimension (first :: others) < 256 ^ 4 from small)) ?_
    rw [if_neg (show dimension (first :: others) ≠ 0 by rw [dimension]; omega)]
    refine Refuses.each (fun position entry member => ?_) (fun position entry member => ?_) 0
    · rw [dimension_eq same member, ← same entry member]
      exact reads_readEntry (fits.uri entry member) (fits.text entry member) position
    · rw [dimension_eq same member, ← same entry member]
      exact refuses_readEntry (fits.uri entry member) (fits.text entry member) position

/-- **A file that is cut short** is refused as corrupt. -/
theorem load_cut {entries : List StoredEntry} (uniform : Uniform entries) (fits : Fits entries)
    {part : Bytes} (cut : part <+: fileBytes entries) (short : part ≠ fileBytes entries) :
    ∃ detail, load path part = .error (.corrupt path detail) := by
  obtain ⟨error, fails, detail, rfl⟩ := refuses_readEntries uniform fits part cut short
  exact ⟨detail, by unfold load; rw [fails]; rfl⟩

/-! ## What was read was written -/

theorem readNumber_eq_ok {width n : Nat}
    (ran : (readNumber path width label).run bytes = .ok (n, rest)) :
    bytes = leBytes width n ++ rest ∧ n < 256 ^ width := by
  obtain ⟨taken, middle, first, finished⟩ := run_bind_eq_ok.mp ran
  cases finished
  obtain ⟨rfl, rfl⟩ := takeBytes_eq_ok first
  exact ⟨by rw [leBytes_ofLeBytes], ofLeBytes_lt taken⟩

theorem readText_eq_ok {len : Nat} (ran : (readText path len label).run bytes = .ok (value, rest)) :
    bytes = utf8 value ++ rest ∧ (utf8 value).length = len := by
  obtain ⟨taken, middle, first, finished⟩ := run_bind_eq_ok.mp ran
  obtain ⟨rfl, rfl⟩ := takeBytes_eq_ok first
  cases decoded : fromUtf8 taken with
  | none =>
    rw [decoded] at finished
    cases finished
  | some value' =>
    rw [decoded] at finished
    cases finished
    rw [fromUtf8_eq_some.mp decoded]
    exact ⟨rfl, rfl⟩

theorem readFloat_eq_ok {x : Float32Bits}
    (ran : (readFloat path label).run bytes = .ok (x, rest)) : bytes = writeFloat x ++ rest := by
  obtain ⟨n, middle, first, finished⟩ := run_bind_eq_ok.mp ran
  cases finished
  obtain ⟨rfl, small⟩ := readNumber_eq_ok first
  rw [writeFloat, BitVec.toNat_ofNat, Nat.mod_eq_of_lt (show n < 2 ^ 32 from small)]

theorem readVector_eq_ok {vector : List Float32Bits}
    (ran : (readVector path dim i).run bytes = .ok (vector, rest)) :
    bytes = vector.flatMap writeFloat ++ rest ∧ vector.length = dim :=
  ⟨written_of_readEach (fun _ _ _ _ => readFloat_eq_ok) ran,
    (forall_of_readEach (fun _ _ _ _ _ => trivial) ran).1⟩

theorem writeVector_length (vector : List Float32Bits) :
    (vector.flatMap writeFloat).length = 4 * vector.length := by
  induction vector with
  | nil => rfl
  | cons x rest ih =>
    rw [List.flatMap_cons, List.length_append, ih, writeFloat, leBytes_length, List.length_cons]
    omega

/-! ## Texts -/

/-- The length of a text fits in its field. -/
abbrev ShortText (value : String) : Prop := (utf8 value).length < 2 ^ 32

theorem reads_readText (value : String) :
    Reads (readText path (utf8 value).length label) (utf8 value) value := by
  refine (reads_readExact rfl).last ?_
  rw [fromUtf8_utf8]
  exact Reads.pure

theorem small_of_lt {n : Nat} (small : n < 2 ^ 32) : n ≤ isizeMax := by
  have large : 2 ^ 32 ≤ isizeMax := by decide
  omega

theorem yields_readString (short : ShortText value) :
    (readStringMetered path label).Yields (writeString value) value :=
  (Reserving.yields_read (reads_readNumber (show _ < 256 ^ 4 from short))).bind
    ((Reserving.yields_reserve (small_of_lt short)).bind
      (Reserving.yields_read (reads_readText value)))

theorem readString_written (ran : readStringMetered path label bytes = (.ok (value, rest), asked)) :
    bytes = writeString value ++ rest ∧ ShortText value := by
  obtain ⟨n, middle, _, _, first, ran, -⟩ := Reserving.bind_eq_ok ran
  obtain ⟨_, still, _, _, reserved, last, -⟩ := Reserving.bind_eq_ok ran
  obtain ⟨rfl, small⟩ := readNumber_eq_ok (Reserving.read_eq_ok first)
  obtain ⟨rfl, rfl⟩ := readText_eq_ok (Reserving.read_eq_ok last)
  rw [Reserving.reserve, if_pos (small_of_lt small)] at reserved
  cases reserved
  exact ⟨by rw [writeString, List.append_assoc], small⟩

/-- A text asks for as many bytes as stands in front of it. -/
theorem mem_readString : size ∈ (readStringMetered path label bytes).2 ↔
    ∃ rest, bytes = leBytes 4 size ++ rest ∧ size < 2 ^ 32 := by
  unfold readStringMetered
  rw [Reserving.mem_bind, Reserving.read_asks]
  constructor
  · rintro (none_ | ⟨n, rest, first, asks⟩)
    · cases none_
    rcases Reserving.mem_bind.mp asks with reserves | ⟨_, _, -, reads⟩
    · obtain rfl := List.mem_singleton.mp reserves
      exact ⟨rest, readNumber_eq_ok (Reserving.read_eq_ok (Prod.ext first rfl))⟩
    · rw [Reserving.read_asks] at reads
      cases reads
  · rintro ⟨rest, rfl, small⟩
    have first := Reserving.yields_read (@reads_readNumber path label 4 size small) rest
    exact .inr ⟨size, rest, first, Reserving.mem_bind.mpr (.inl (List.mem_singleton_self _))⟩

/-! ## Entries -/

/-- An entry of a file with vectors of some length. -/
structure EntryOf (dim : Nat) (entry : StoredEntry) : Prop where
  vector : entry.vector.length = dim
  uri : ShortText entry.uri
  text : ShortText entry.text

/-- Four times a number that fits in its field. -/
theorem vector_small (small : dim < 2 ^ 32) : 4 * dim ≤ isizeMax := by
  have large : 4 * 2 ^ 32 ≤ isizeMax := by decide
  omega

theorem yields_readEntry (small : dim < 2 ^ 32) (fits : EntryOf dim entry) :
    (readEntryMetered path dim i).Yields (writeEntry entry) entry := by
  refine (yields_readString fits.uri).bind ((yields_readString fits.text).bind ?_)
  refine (Reserving.yields_read
    (reads_readNumber (show _ < 256 ^ 4 from entry.chunkIndex.toNat_lt))).bind ?_
  have vector : Reads (readVector path dim i) (entry.vector.flatMap writeFloat) entry.vector := by
    rw [← fits.vector]
    exact Reads.each (fun _ _ _ => reads_readFloat) 0
  rw [UInt32.ofNat_toNat, ← List.append_nil (entry.vector.flatMap writeFloat),
    ← List.nil_append (entry.vector.flatMap writeFloat ++ [])]
  refine (Reserving.yields_reserve (vector_small small)).bind ?_
  exact (Reserving.yields_read vector).bind (Reserving.yields_pure entry)

theorem readEntry_written (small : dim < 2 ^ 32)
    (ran : readEntryMetered path dim i bytes = (.ok (entry, rest), asked)) :
    bytes = writeEntry entry ++ rest ∧ EntryOf dim entry := by
  obtain ⟨uri, _, _, _, first, ran, -⟩ := Reserving.bind_eq_ok ran
  obtain ⟨text, _, _, _, second, ran, -⟩ := Reserving.bind_eq_ok ran
  obtain ⟨chunkIndex, _, _, _, third, ran, -⟩ := Reserving.bind_eq_ok ran
  obtain ⟨_, _, _, _, reserved, ran, -⟩ := Reserving.bind_eq_ok ran
  obtain ⟨vector, _, _, _, fourth, ran, -⟩ := Reserving.bind_eq_ok ran
  cases ran
  rw [Reserving.reserve, if_pos (vector_small small)] at reserved
  cases reserved
  obtain ⟨rfl, shortUri⟩ := readString_written first
  obtain ⟨rfl, shortText⟩ := readString_written second
  obtain ⟨rfl, chunk⟩ := readNumber_eq_ok (Reserving.read_eq_ok third)
  obtain ⟨rfl, length⟩ := readVector_eq_ok (Reserving.read_eq_ok fourth)
  refine ⟨?_, length, shortUri, shortText⟩
  rw [writeEntry, UInt32.toNat_ofNat', Nat.mod_eq_of_lt (show chunkIndex < 2 ^ 32 from chunk)]
  simp only [List.append_assoc]

/-- What an entry asks for: the bytes of its texts, and four bytes for each float. -/
inductive EntryAsks (dim : Nat) (bytes : Bytes) : Nat → Prop
  | uri {size : Nat} (rest : Bytes) (small : size < 2 ^ 32)
      (there : bytes = leBytes 4 size ++ rest) : EntryAsks dim bytes size
  | text {size : Nat} (uri : String) (rest : Bytes) (short : ShortText uri) (small : size < 2 ^ 32)
      (there : bytes = writeString uri ++ (leBytes 4 size ++ rest)) : EntryAsks dim bytes size
  | vector (uri text : String) (chunkIndex : UInt32) (rest : Bytes) (shortUri : ShortText uri)
      (shortText : ShortText text) (there : bytes =
        writeString uri ++ (writeString text ++ (leBytes 4 chunkIndex.toNat ++ rest))) :
      EntryAsks dim bytes (4 * dim)

theorem mem_readEntry : size ∈ (readEntryMetered path dim i bytes).2 ↔ EntryAsks dim bytes size := by
  unfold readEntryMetered
  constructor
  · intro asks
    rcases Reserving.mem_bind.mp asks with here | ⟨uri, afterUri, first, behindUri⟩
    · obtain ⟨rest, there, small⟩ := mem_readString.mp here
      exact .uri rest small there
    obtain ⟨rfl, shortUri⟩ := readString_written (Prod.ext first rfl)
    rcases Reserving.mem_bind.mp behindUri with here | ⟨text, afterText, second, behindText⟩
    · obtain ⟨rest, rfl, small⟩ := mem_readString.mp here
      exact .text uri rest shortUri small rfl
    obtain ⟨rfl, shortText⟩ := readString_written (Prod.ext second rfl)
    rcases Reserving.mem_bind.mp behindText with here | ⟨chunkIndex, afterChunk, third, behind⟩
    · rw [Reserving.read_asks] at here
      cases here
    obtain ⟨rfl, chunk⟩ := readNumber_eq_ok (Reserving.read_eq_ok (Prod.ext third rfl))
    rcases Reserving.mem_bind.mp behind with here | ⟨_, _, -, last⟩
    · obtain rfl := List.mem_singleton.mp here
      refine .vector uri text (UInt32.ofNat chunkIndex) afterChunk shortUri shortText ?_
      rw [UInt32.toNat_ofNat', Nat.mod_eq_of_lt (show chunkIndex < 2 ^ 32 from chunk)]
    · rcases Reserving.mem_bind.mp last with here | ⟨_, _, -, here⟩
      · rw [Reserving.read_asks] at here
        cases here
      · cases here
  · intro asks
    cases asks with
    | uri rest small there =>
      exact Reserving.mem_bind.mpr (.inl (mem_readString.mpr ⟨rest, there, small⟩))
    | text uri rest short small there =>
      subst there
      refine (yields_readString short).mem_bind.mpr (.inr ?_)
      exact Reserving.mem_bind.mpr (.inl (mem_readString.mpr ⟨rest, rfl, small⟩))
    | vector uri text chunkIndex rest shortUri shortText there =>
      subst there
      refine (yields_readString shortUri).mem_bind.mpr (.inr ?_)
      refine (yields_readString shortText).mem_bind.mpr (.inr ?_)
      refine (Reserving.yields_read (reads_readNumber
        (show _ < 256 ^ 4 from chunkIndex.toNat_lt))).mem_bind.mpr (.inr ?_)
      exact Reserving.mem_bind.mpr (.inl (List.mem_singleton_self _))

/-! ## The whole file -/

/-- A file with a header: so many entries, of vectors of some length. -/
structure Headed (data : Bytes) (count dim : Nat) (body : Bytes) : Prop where
  there : data = magic ++ (leBytes 8 count ++ (leBytes 4 dim ++ body))
  count : count < 2 ^ 64
  dim : dim < 2 ^ 32

theorem readHeader_run :
    (readHeader path).run data = .ok ((count, dim), body) ↔ Headed data count dim body := by
  constructor
  · intro ran
    unfold readHeader at ran
    obtain ⟨found, _, first, checked⟩ := run_bind_eq_ok.mp ran
    obtain ⟨rfl, -⟩ := takeBytes_eq_ok first
    dsimp only at checked
    split at checked
    · cases checked
    · rename_i same
      rw [not_not] at same
      subst same
      obtain ⟨n, _, second, numbers⟩ := run_bind_eq_ok.mp checked
      obtain ⟨m, _, third, finished⟩ := run_bind_eq_ok.mp numbers
      cases finished
      obtain ⟨rfl, many⟩ := readNumber_eq_ok second
      obtain ⟨rfl, long⟩ := readNumber_eq_ok third
      exact ⟨rfl, many, long⟩
  · rintro ⟨rfl, many, long⟩
    have header : Reads (readHeader path) (magic ++ (leBytes 8 count ++ leBytes 4 dim))
        (count, dim) := by
      refine (reads_readExact (show magic.length = 4 from rfl)).bind ?_
      dsimp only
      rw [if_neg (not_not.mpr rfl)]
      refine (reads_readNumber (show _ < 256 ^ 8 from many)).bind ?_
      exact (reads_readNumber (show _ < 256 ^ 4 from long)).map
    have ran := header body
    simp only [List.append_assoc] at ran
    exact ran

/-- A place of a file where an entry begins. -/
structure EntryBegins (dim count : Nat) (body rest : Bytes) : Prop where
  behind : ∃ entries : List StoredEntry, entries.length < count ∧
    (∀ entry ∈ entries, EntryOf dim entry) ∧ body = entries.flatMap writeEntry ++ rest

/-- The sizes that a file declares, as far as its entries are whole: room for all entries, and
what each entry asks for. -/
inductive Declares (data : Bytes) : Nat → Prop
  | entries {count dim : Nat} {body : Bytes} (headed : Headed data count dim body)
      (vectors : dim ≠ 0) : Declares data (storedEntrySize * count)
  | entry {count dim size : Nat} {body rest : Bytes} (headed : Headed data count dim body)
      (vectors : dim ≠ 0) (begins : EntryBegins dim count body rest)
      (asks : EntryAsks dim rest size) : Declares data size

theorem mem_entries (small : dim < 2 ^ 32) :
    size ∈ ((.each (readEntryMetered path dim) 0 count : Reserving IndexError _) body).2 ↔
      ∃ rest, EntryBegins dim count body rest ∧ EntryAsks dim rest size := by
  rw [Reserving.mem_each (fun _ _ fits => yields_readEntry small fits)
    (fun _ _ _ _ _ ran => readEntry_written small ran)]
  constructor
  · rintro ⟨entries, rest, few, fit, there, asks⟩
    exact ⟨rest, ⟨entries, few, fit, there⟩, mem_readEntry.mp asks⟩
  · rintro ⟨rest, ⟨entries, few, fit, there⟩, asks⟩
    exact ⟨entries, rest, few, fit, there, mem_readEntry.mpr asks⟩

/-- **What a load asks for** besides the bytes of the file, while its first request is met. -/
theorem mem_readEntries (met : ∀ count dim body, Headed data count dim body → dim ≠ 0 →
      storedEntrySize * count ≤ isizeMax) :
    size ∈ (readEntriesMetered path data).2 ↔ Declares data size := by
  unfold readEntriesMetered
  rw [Reserving.mem_bind, Reserving.read_asks]
  constructor
  · rintro (none_ | ⟨⟨count, dim⟩, body, header, asks⟩)
    · cases none_
    have headed := readHeader_run.mp (Reserving.read_eq_ok (Prod.ext header rfl))
    dsimp only at asks
    split at asks
    · cases asks
    · rename_i vectors
      rcases Reserving.mem_bind.mp asks with here | ⟨_, still, reserved, later⟩
      · rw [List.mem_singleton.mp here]
        exact .entries headed vectors
      · rw [Reserving.reserve, if_pos (met count dim body headed vectors)] at reserved
        cases reserved
        obtain ⟨rest, begins, asks⟩ := (mem_entries headed.dim).mp later
        exact .entry headed vectors begins asks
  · intro declares
    refine .inr ?_
    cases declares with
    | @entries count dim body headed vectors =>
      refine ⟨(count, dim), body, ?_, ?_⟩
      · rw [Reserving.read_of_ok (readHeader_run.mpr headed)]
      · dsimp only
        rw [if_neg vectors]
        exact Reserving.mem_bind.mpr (.inl (List.mem_singleton_self _))
    | @entry count dim _ body rest headed vectors begins asks =>
      refine ⟨(count, dim), body, ?_, ?_⟩
      · rw [Reserving.read_of_ok (readHeader_run.mpr headed)]
      · dsimp only
        rw [if_neg vectors]
        refine Reserving.mem_bind.mpr (.inr ⟨(), body, ?_, ?_⟩)
        · exact if_pos (met count dim body headed vectors)
        · exact (mem_entries headed.dim).mpr ⟨rest, begins, asks⟩

theorem honest_readString : (readStringMetered path label).Honest :=
  (Reserving.honest_read _).bind fun len =>
    (Reserving.honest_reserve len).bind fun _ => Reserving.honest_read _

theorem honest_readEntry (dim i : Nat) : (readEntryMetered path dim i).Honest :=
  honest_readString.bind fun _ => honest_readString.bind fun _ =>
    (Reserving.honest_read _).bind fun _ => (Reserving.honest_reserve _).bind fun _ =>
      (Reserving.honest_read _).bind fun _ => Reserving.honest_pure _

theorem honest_readEntries : (readEntriesMetered path).Honest := by
  refine (Reserving.honest_read _).bind fun header => ?_
  obtain ⟨count, dim⟩ := header
  dsimp only
  split
  · exact Reserving.honest_pure _
  · exact (Reserving.honest_reserve _).bind fun _ =>
      Reserving.honest_each (fun i => honest_readEntry dim i) 0 count

/-! ## What is paid for -/

section Paid

variable {most : Nat}

theorem paid_readNumber (width : Nat) : (Reserving.read (readNumber path width label)).Paid most :=
  Reserving.paid_read fun bytes n rest ran => by
    obtain ⟨rfl, -⟩ := readNumber_eq_ok ran
    rw [List.length_append]
    omega

theorem paid_readString : (readStringMetered path label).Paid most :=
  (paid_readNumber 4).bind fun len => Reserving.paid_fill fun bytes value rest ran => by
    obtain ⟨rfl, rfl⟩ := readText_eq_ok ran
    rw [List.length_append]

theorem paid_readEntry (dim i : Nat) : (readEntryMetered path dim i).Paid most := by
  refine paid_readString.bind fun uri => paid_readString.bind fun text =>
    (paid_readNumber 4).bind fun chunkIndex => ?_
  rw [Reserving.read_bind_pure]
  refine Reserving.paid_fill fun bytes entry rest ran => ?_
  obtain ⟨vector, _, reads, finished⟩ := run_bind_eq_ok.mp ran
  cases finished
  obtain ⟨rfl, rfl⟩ := readVector_eq_ok reads
  rw [List.length_append, writeVector_length]

end Paid

/-- All that a load asks for, where no request is larger than a given size. -/
theorem sum_le {most : Nat} (within : ∀ size ∈ (readEntriesMetered path data).2, size ≤ most) :
    (readEntriesMetered path data).2.sum ≤ data.length + 2 * most := by
  unfold readEntriesMetered at within ⊢
  rcases (Reserving.read (readHeader path)).run_cases data with
    ⟨halt, asked, stops⟩ | ⟨⟨count, dim⟩, body, asked, reads⟩
  · have none_ : asked = [] := by
      rw [← Reserving.read_asks (readHeader path) data, stops]
    rw [Reserving.bind_of_error stops, none_]
    exact Nat.zero_le _
  · have none_ : asked = [] := by
      rw [← Reserving.read_asks (readHeader path) data, reads]
    have headed := readHeader_run.mp (Reserving.read_eq_ok reads)
    have shorter : body.length ≤ data.length := by
      rw [headed.there]
      simp only [List.length_append]
      omega
    rw [Reserving.bind_of_ok reads, none_, List.nil_append] at within ⊢
    dsimp only at within ⊢
    by_cases vectors : dim = 0
    · rw [if_pos vectors]
      exact Nat.zero_le _
    · rw [if_neg vectors, Reserving.reserve_bind_asks] at within ⊢
      split at within
      · rename_i small
        obtain ⟨room, within⟩ := List.forall_mem_cons.mp within
        have entries := (Reserving.paid_each (paid_readEntry dim) 0 count).sum_le within
        rw [if_pos small, List.sum_cons]
        omega
      · rename_i large
        have room := within _ (List.mem_singleton_self _)
        rw [if_neg large, List.sum_singleton]
        omega

/-! ## Files that can be loaded -/

/-- All of these files are loaded, or refused with an error, in memory that is at most a
constant multiple of their length. -/
def Bounded (path : String) (files : Set Bytes) : Prop :=
  ∃ factor, ∀ data ∈ files, (loadMetered path data).1 ≠ .error .panicked ∧
    (loadMetered path data).2.sum ≤ factor * data.length

/-- The sizes that these files declare are at most a constant multiple of their length, and
none is more than a buffer can have. -/
def SizesBounded (files : Set Bytes) : Prop :=
  ∃ factor, ∀ data ∈ files, ∀ size, Declares data size → size ≤ isizeMax ∧
    size ≤ factor * data.length

theorem panics_iff : (loadMetered path data).1 = .error .panicked ↔
    ∃ size ∈ (readEntriesMetered path data).2, isizeMax < size := by
  rw [← honest_readEntries data]
  unfold loadMetered
  dsimp only
  cases (readEntriesMetered path data).1 with
  | error halt => exact ⟨fun same => (by cases same; rfl), fun same => (by cases same; rfl)⟩
  | ok pair => exact iff_of_false nofun nofun

/-- The room for all entries is asked for first. -/
theorem room_asked (headed : Headed data count dim body)
    (vectors : dim ≠ 0) : storedEntrySize * count ∈ (readEntriesMetered path data).2 := by
  unfold readEntriesMetered
  rw [Reserving.bind_of_ok (Reserving.read_of_ok (readHeader_run.mpr headed)), List.nil_append]
  dsimp only
  rw [if_neg vectors, Reserving.reserve_bind_asks]
  split
  · exact List.mem_cons_self
  · exact List.mem_singleton_self _

/-- **What a file may declare** so that it can be loaded. -/
theorem bounded_iff (files : Set Bytes) : Bounded path files ↔ SizesBounded files := by
  constructor
  · rintro ⟨factor, bounded⟩
    refine ⟨factor, fun data member size declares => ?_⟩
    obtain ⟨calm, total⟩ := bounded data member
    have possible : ∀ size ∈ (readEntriesMetered path data).2, size ≤ isizeMax := by
      intro size asks
      by_contra large
      exact calm (panics_iff.mpr ⟨size, asks, not_le.mp large⟩)
    have asks := (@mem_readEntries path data size fun count dim body headed vectors =>
      possible _ (room_asked headed vectors)).mpr declares
    have least := List.le_sum_of_mem asks
    change (data.length :: (readEntriesMetered path data).2).sum ≤ _ at total
    rw [List.sum_cons] at total
    exact ⟨possible size asks, by omega⟩
  · rintro ⟨factor, bounded⟩
    refine ⟨2 * factor + 2, fun data member => ?_⟩
    have asked (size : Nat) : size ∈ (readEntriesMetered path data).2 ↔ Declares data size :=
      mem_readEntries fun count dim body headed vectors =>
        (bounded data member _ (.entries headed vectors)).1
    constructor
    · intro panics
      obtain ⟨size, asks, large⟩ := panics_iff.mp panics
      exact absurd (bounded data member size ((asked size).mp asks)).1 (not_le.mpr large)
    · have total := @sum_le path data (factor * data.length) fun size asks =>
        (bounded data member size ((asked size).mp asks)).2
      change (data.length :: (readEntriesMetered path data).2).sum ≤ _
      rw [List.sum_cons]
      calc data.length + (readEntriesMetered path data).2.sum
          ≤ data.length + (data.length + 2 * (factor * data.length)) := Nat.add_le_add_left total _
        _ = (2 * factor + 2) * data.length := by ring

/-! ## Files of an index -/

/-- An index after inserts that were accepted, and deletions. -/
inductive Reached : FlatVectorIndex → Prop
  | new : Reached new
  | insert {index : FlatVectorIndex} (before : Reached index) (entries : List IndexEntry)
      (accepted : (index.insert entries).1 = .ok ()) : Reached (index.insert entries).2
  | deleteByUri {index : FlatVectorIndex} (before : Reached index) (uri : String) :
      Reached (index.deleteByUri uri).2

theorem Reached.uniform (reached : Reached index) : Uniform index.entries := by
  induction reached with
  | new => exact ⟨1, Nat.one_pos, nofun⟩
  | insert _ entries _ ih => exact uniform_insert ih entries
  | deleteByUri _ uri ih => exact uniform_deleteByUri ih uri

/-- Only a header makes the loader panic. -/
theorem headed_of_panics (panics : (loadMetered path data).1 = .error .panicked) :
    ∃ count dim body, Headed data count dim body ∧ isizeMax < storedEntrySize * count := by
  by_contra none_
  have met : ∀ count dim body, Headed data count dim body → dim ≠ 0 →
      storedEntrySize * count ≤ isizeMax := fun count dim body headed _ =>
    not_lt.mp fun large => none_ ⟨count, dim, body, headed, large⟩
  obtain ⟨size, asks, large⟩ := panics_iff.mp panics
  refine absurd large (not_lt.mpr ?_)
  cases (mem_readEntries met).mp asks with
  | entries headed vectors => exact met _ _ _ headed vectors
  | entry headed _ _ asks =>
    cases asks with
    | uri _ small _ => exact small_of_lt small
    | text _ _ _ small _ => exact small_of_lt small
    | vector => exact vector_small headed.dim

/-- The header of a file is that of any part of it that has one. -/
theorem Headed.count_eq {part : Bytes} {entries : List StoredEntry}
    (headed : Headed part count dim body) (many : entries.length < 2 ^ 64)
    (cut : part <+: fileBytes entries) : count = entries.length := by
  obtain ⟨more, whole⟩ := cut
  rw [headed.there, fileBytes, List.append_assoc, List.append_assoc] at whole
  have numbers := List.append_inj_left (List.append_cancel_left whole)
    (by rw [leBytes_length, leBytes_length])
  exact leBytes_injective headed.count many numbers

theorem calm_of_cut {entries : List StoredEntry} {part : Bytes}
    (room : storedEntrySize * entries.length ≤ isizeMax) (cut : part <+: fileBytes entries) :
    (loadMetered path part).1 = (load path part).mapError .failed := by
  refine (loadMetered_eq part).resolve_left fun panics => ?_
  obtain ⟨count, dim, body, headed, large⟩ := headed_of_panics panics
  have many : entries.length < 2 ^ 64 := by
    unfold storedEntrySize isizeMax at room
    omega
  rw [headed.count_eq many cut] at large
  exact absurd room (not_le.mpr large)

theorem readEntry_vector
    (read : (readEntry path dim i).run bytes = .ok (entry, rest)) : entry.vector.length = dim := by
  unfold readEntry at read
  obtain ⟨uri, _, _, read⟩ := run_bind_eq_ok.mp read
  obtain ⟨text, _, _, read⟩ := run_bind_eq_ok.mp read
  obtain ⟨chunkIndex, _, _, read⟩ := run_bind_eq_ok.mp read
  obtain ⟨vector, _, vectorRead, read⟩ := run_bind_eq_ok.mp read
  cases read
  exact (forall_of_readEach (fun _ _ _ _ _ => trivial) vectorRead).1

/-- The vectors of a loaded index are as short as their field says. -/
theorem vectors_short (loaded : load path data = .ok index) :
    ∀ entry ∈ index.entries, entry.vector.length < 2 ^ 32 := by
  unfold load at loaded
  obtain ⟨⟨entries, rest⟩, ran, finished⟩ := bind_eq_ok.mp loaded
  cases finished
  rw [readEntries_eq] at ran
  obtain ⟨⟨count, dim⟩, body, header, ran⟩ := run_bind_eq_ok.mp ran
  have headed := readHeader_run.mp header
  dsimp only at ran
  split at ran
  · cases ran
    exact nofun
  · intro entry member
    have length := (forall_of_readEach (fun _ _ _ _ => readEntry_vector) ran).2 entry member
    rw [length]
    exact headed.dim

/-- **The file of an index** is read back, and refused when it is cut short, exactly where the
length of the vectors fits in its field. -/
theorem file_kept_iff (reached : Reached index)
    (short : ∀ entry ∈ index.entries, ShortText entry.uri ∧ ShortText entry.text)
    (room : storedEntrySize * index.entries.length ≤ isizeMax) :
    ((loadMetered path (fileBytes index.entries)).1 = .ok ⟨index.entries, false⟩ ∧
      ∀ part, part <+: fileBytes index.entries → part ≠ fileBytes index.entries →
        ∃ detail, (loadMetered path part).1 = .error (.failed (.corrupt path detail))) ↔
    dimension index.entries < 2 ^ 32 := by
  have whole := @calm_of_cut path _ _ room (List.prefix_refl _)
  constructor
  · rintro ⟨loaded, -⟩
    rw [whole] at loaded
    cases present : index.entries with
    | nil => exact Nat.pow_pos (by decide)
    | cons first others =>
      cases result : load path (fileBytes index.entries) with
      | error error =>
        rw [result] at loaded
        cases loaded
      | ok again =>
        rw [result] at loaded
        obtain rfl : again = ⟨index.entries, false⟩ := Except.ok.inj loaded
        exact vectors_short result first (present ▸ List.mem_cons_self)
  · intro small
    have uniform := reached.uniform
    have fits : Fits index.entries := by
      refine ⟨?_, fun entry member => (short entry member).1, fun entry member =>
        (short entry member).2, fun entry member => ?_⟩
      · unfold storedEntrySize isizeMax at room
        omega
      · obtain ⟨dim, _, same⟩ := uniform
        rw [same entry member, ← dimension_eq same member]
        exact small
    refine ⟨by rw [whole, load_fileBytes uniform fits]; rfl, fun part cut less => ?_⟩
    obtain ⟨detail, refused⟩ := @load_cut path _ uniform fits part cut less
    exact ⟨detail, by rw [calm_of_cut room cut, refused]; rfl⟩

/-! ## The format -/

/-- A header of one float a vector, and of more entries than there can be. -/
def endlessHeader : Bytes := magic ++ (leBytes 8 (2 ^ 63) ++ leBytes 4 1)

end OpenMemory.Index.FlatVectorIndex
