import Mathlib

/-!
# Directories and operations on them

A directory tree is listed in the order a reader meets its entries. The directories with a name
of their own form a disk; each is a table from the path below it to what is stored there. A
session performs operations on a disk in order: one that fails changes nothing, and every disk
the session has seen is kept, since the process may stop at any of them.

Copying a tree is a list of operations inside one named directory. It leaves the other
directories alone, and when all of it succeeds the directory holds the tree over what it held.
-/

namespace Foundation.Directories

abbrev Path := List String

abbrev Bytes := List UInt8

/-! ## Trees -/

mutual

inductive Node where
  | file (bytes : Bytes)
  /-- A link, a socket or a device: neither a directory nor a regular file. -/
  | special
  | directory (entries : Entries)

/-- The entries of a directory, in the order they are read. -/
inductive Entries where
  | nil
  | cons (name : String) (node : Node) (rest : Entries)

end

/-- What a path leads to. -/
inductive Stored where
  | directory
  | file (bytes : Bytes)
  deriving DecidableEq

/-- The contents of a regular file. -/
def Stored.bytes : Stored → Option Bytes
  | .directory => none
  | .file bytes => some bytes

mutual

/-- The directory or the regular file at a path below a node. -/
def Node.stored : Node → Path → Option Stored
  | .file bytes, [] => some (.file bytes)
  | .file _, _ :: _ => none
  | .special, _ => none
  | .directory _, [] => some .directory
  | .directory entries, name :: path => entries.stored name path

def Entries.stored : Entries → String → Path → Option Stored
  | .nil, _, _ => none
  | .cons name node rest, first, path =>
    (rest.stored first path).or (if name = first then node.stored path else none)

end

mutual

/-- The number of regular files below a node, and of their bytes. -/
def Node.size : Node → Nat × Nat
  | .file bytes => (1, bytes.length)
  | .special => (0, 0)
  | .directory entries => entries.size

def Entries.size : Entries → Nat × Nat
  | .nil => (0, 0)
  | .cons _ node rest => (node.size.1 + rest.size.1, node.size.2 + rest.size.2)

end

/-- The entries but those of a name. -/
def Entries.without (name : String) : Entries → Entries
  | .nil => .nil
  | .cons first node rest =>
    if first = name then rest.without name else .cons first node (rest.without name)

@[simp] theorem Entries.stored_without (name first : String) (path : Path) :
    ∀ entries : Entries, (entries.without name).stored first path =
      if first = name then none else entries.stored first path
  | .nil => by simp [Entries.without, Entries.stored]
  | .cons other node rest => by
    have ih := Entries.stored_without name first path rest
    by_cases dropped : other = name
    · simp only [Entries.without, if_pos dropped, ih, Entries.stored]
      by_cases same : first = name
      · simp [same]
      · simp [same, show other ≠ first from fun equal => same (equal.symm.trans dropped)]
    · simp only [Entries.without, if_neg dropped, Entries.stored, ih]
      by_cases same : first = name
      · simp [same, dropped]
      · simp [same]

/-- Nothing lies below a path that leads nowhere. -/
theorem Node.stored_below {node : Node} (nothing : node.stored [] = none) (path : Path) :
    node.stored path = none := by
  cases node with
  | file bytes => simp [Node.stored] at nothing
  | special => rw [Node.stored]
  | directory entries => simp [Node.stored] at nothing

theorem Entries.stored_below {name : String} :
    ∀ {entries : Entries}, entries.stored name [] = none → ∀ path, entries.stored name path = none
  | .nil, _, _ => by rw [Entries.stored]
  | .cons first node rest, nothing, path => by
    simp only [Entries.stored, Option.or_eq_none_iff] at nothing ⊢
    refine ⟨Entries.stored_below nothing.1 path, ?_⟩
    by_cases same : first = name
    · simp only [if_pos same] at nothing ⊢
      exact Node.stored_below nothing.2 path
    · simp [same]

/-! ## Operations -/

/-- What is stored below a named directory, the latest first. -/
abbrev Listing := List (Path × Stored)

/-- The contents of the regular file at a path. -/
def Listing.bytes (table : Listing) (path : Path) : Option Bytes :=
  (table.lookup path).bind Stored.bytes

/-- The contents of the regular file at a path below a node. -/
def Node.bytes (node : Node) (path : Path) : Option Bytes :=
  (node.stored path).bind Stored.bytes

/-- Nothing is stored below the path of the directory itself. -/
def Listing.isEmpty (table : Listing) : Bool :=
  table.all fun entry => entry.1.isEmpty

/-- The named directories. -/
abbrev Disk := String → Option Listing

/-- An operation inside a directory. -/
inductive FileOp where
  /-- Creates the directory if it is missing. -/
  | createDir (path : Path)
  | readDir (path : Path)
  | copyFile (path : Path) (bytes : Bytes)
  | syncFile (path : Path)
  | syncDir (path : Path)
  /-- Creates a file where there is nothing. -/
  | createNew (path : Path)
  | write (path : Path) (bytes : Bytes)

/-- What an operation leaves of the directory, if it can be performed. -/
def FileOp.effect : FileOp → Option Listing → Option Listing
  | .createDir path, table => some ((path, .directory) :: table.getD [])
  | .copyFile path bytes, some table => some ((path, .file bytes) :: table)
  | .createNew path, some table =>
    if table.lookup path = none then some ((path, .file []) :: table) else none
  | .write path bytes, some table => some ((path, .file bytes) :: table)
  | .readDir _, table => table
  | .syncFile _, table => table
  | .syncDir _, table => table
  | .copyFile _ _, none => none
  | .createNew _, none => none
  | .write _ _, none => none

inductive DiskOp where
  | within (name : String) (op : FileOp)
  | rename (source target : String)
  | remove (name : String)
  | sync

/-- What an operation leaves of the disk, if it can be performed. A directory is renamed onto
none or onto an empty one. -/
def DiskOp.effect : DiskOp → Disk → Option Disk
  | .within name op, disk =>
    (op.effect (disk name)).map fun table => Function.update disk name (some table)
  | .rename source target, disk =>
    if (disk source).isSome ∧ (disk target).all Listing.isEmpty then
      some (Function.update (Function.update disk source none) target (disk source))
    else none
  | .remove name, disk =>
    if (disk name).isSome then some (Function.update disk name none) else none
  | .sync, disk => some disk

/-! ## Sessions -/

/-- A disk and every disk there was before it, the latest first. -/
structure Session where
  disk : Disk
  before : List Disk

namespace Session

def start (disk : Disk) : Session := ⟨disk, []⟩

/-- The disks at which the process may have stopped. -/
def seen (s : Session) : List Disk := s.disk :: s.before

def move (s : Session) (disk : Disk) : Session := ⟨disk, s.seen⟩

/-- Performs an operation, unless it fails. -/
def attempt (s : Session) (fails : Bool) (op : DiskOp) : Option Session :=
  if fails then none else (op.effect s.disk).map s.move

/-- Performs an operation whose failure is ignored. -/
def tryTo (s : Session) (fails : Bool) (op : DiskOp) : Session :=
  (s.attempt fails op).getD s

/-- Performs the operations inside a directory up to the first that fails, and tells whether
all of them were performed. -/
def performAll (fails : FileOp → Bool) (name : String) : List FileOp → Session → Session × Bool
  | [], s => (s, true)
  | op :: rest, s =>
    match s.attempt (fails op) (.within name op) with
    | none => (s, false)
    | some next => performAll fails name rest next

theorem performAll_stopped {s : Session} {fails : FileOp → Bool} {name : String} {op : FileOp}
    {rest : List FileOp} (failed : s.attempt (fails op) (.within name op) = none) :
    s.performAll fails name (op :: rest) = (s, false) := by
  rw [performAll, failed]

theorem performAll_next {s next : Session} {fails : FileOp → Bool} {name : String} {op : FileOp}
    {rest : List FileOp} (performed : s.attempt (fails op) (.within name op) = some next) :
    s.performAll fails name (op :: rest) = next.performAll fails name rest := by
  rw [performAll, performed]

end Session

/-! ## Copying -/

mutual

/-- The operations that copy a node to a path: a directory is created, its entries are copied
in order, and it is synced; a file is copied and synced; anything else is passed over. -/
def Node.copied (target : Path) : Node → List FileOp
  | .file bytes => [.copyFile target bytes, .syncFile target]
  | .special => []
  | .directory entries =>
    .createDir target :: .readDir target :: (entries.copied target ++ [.syncDir target])

def Entries.copied (target : Path) : Entries → List FileOp
  | .nil => []
  | .cons name node rest => node.copied (target ++ [name]) ++ rest.copied target

end

/-! ## What operations leave alone -/

theorem DiskOp.effect_within {name : String} {op : FileOp} {disk next : Disk}
    (performed : (DiskOp.within name op).effect disk = some next) :
    ∃ table, op.effect (disk name) = some table ∧
      next = Function.update disk name (some table) := by
  obtain ⟨table, left, rfl⟩ := Option.map_eq_some_iff.mp performed
  exact ⟨table, left, rfl⟩

theorem DiskOp.effect_rename {source target : String} {disk next : Disk} :
    (DiskOp.rename source target).effect disk = some next ↔
      ((disk source).isSome ∧ (disk target).all Listing.isEmpty) ∧
        next = Function.update (Function.update disk source none) target (disk source) := by
  rw [DiskOp.effect]
  split
  next free => simp [free, eq_comm]
  next taken => simp [taken]

theorem DiskOp.effect_remove {name : String} {disk next : Disk} :
    (DiskOp.remove name).effect disk = some next ↔
      (disk name).isSome ∧ next = Function.update disk name none := by
  rw [DiskOp.effect]
  split
  next there => simp [there, eq_comm]
  next missing => simp [missing]

namespace Session

theorem attempt_eq_some {s next : Session} {fails : Bool} {op : DiskOp} :
    s.attempt fails op = some next ↔
      fails = false ∧ ∃ disk, op.effect s.disk = some disk ∧ next = s.move disk := by
  cases fails with
  | false => simp [attempt, eq_comm]
  | true => simp [attempt]

theorem attempt_eq_none {s : Session} {fails : Bool} {op : DiskOp} :
    s.attempt fails op = none ↔ fails = true ∨ op.effect s.disk = none := by
  cases fails <;> simp [attempt]

@[simp] theorem seen_move (s : Session) (disk : Disk) : (s.move disk).seen = disk :: s.seen := rfl

@[simp] theorem disk_move (s : Session) (disk : Disk) : (s.move disk).disk = disk := rfl

theorem disk_mem_seen (s : Session) : s.disk ∈ s.seen := List.mem_cons_self

/-- Every disk of a session agrees with a disk on a name. -/
def Holds (s : Session) (name : String) (disk : Disk) : Prop :=
  ∀ d ∈ s.seen, d name = disk name

theorem Holds.start (name : String) (disk : Disk) : (start disk).Holds name disk := by
  intro d member
  rcases List.mem_singleton.mp member with rfl
  rfl

theorem Holds.disk {s : Session} {name : String} {disk : Disk} (held : s.Holds name disk) :
    s.disk name = disk name :=
  held _ s.disk_mem_seen

theorem Holds.move {s : Session} {name : String} {disk next : Disk} (held : s.Holds name disk)
    (same : next name = disk name) : (s.move next).Holds name disk := by
  intro d member
  rcases List.mem_cons.mp member with rfl | earlier
  · exact same
  · exact held d earlier

theorem mem_seen_tryTo {s : Session} {d : Disk} (member : d ∈ s.seen) (fails : Bool)
    (op : DiskOp) : d ∈ (s.tryTo fails op).seen := by
  rw [tryTo]
  cases performed : s.attempt fails op with
  | none => exact member
  | some next =>
    obtain ⟨_, disk, _, rfl⟩ := attempt_eq_some.mp performed
    exact List.mem_cons_of_mem _ member

/-- Removing a directory, if it fails or not. -/
theorem tryTo_remove (s : Session) (fails : Bool) (name : String) :
    s.tryTo fails (.remove name) =
      if fails = false ∧ (s.disk name).isSome then s.move (Function.update s.disk name none)
      else s := by
  rw [tryTo]
  cases performed : s.attempt fails (.remove name) with
  | none =>
    rw [if_neg]
    · rfl
    rintro ⟨works, there⟩
    rcases attempt_eq_none.mp performed with failing | stuck
    · rw [works] at failing
      cases failing
    · simp [DiskOp.effect, there] at stuck
  | some next =>
    obtain ⟨works, disk, effect, rfl⟩ := attempt_eq_some.mp performed
    obtain ⟨there, rfl⟩ := DiskOp.effect_remove.mp effect
    rw [if_pos ⟨works, there⟩]
    rfl

/-- Operations inside one directory are not seen in another. -/
theorem Holds.performAll {name other : String} {disk : Disk} (fails : FileOp → Bool)
    (apart : other ≠ name) (ops : List FileOp) (s : Session) (held : s.Holds other disk) :
    (s.performAll fails name ops).1.Holds other disk := by
  induction ops generalizing s with
  | nil => exact held
  | cons op rest ih =>
    cases performed : s.attempt (fails op) (.within name op) with
    | none => exact performAll_stopped performed ▸ held
    | some next =>
      rw [performAll_next performed]
      obtain ⟨_, left, effect, rfl⟩ := attempt_eq_some.mp performed
      obtain ⟨table, _, rfl⟩ := DiskOp.effect_within effect
      refine ih _ (held.move ?_)
      rw [Function.update_of_ne apart]
      exact held.disk

end Session

/-! ## What copying leaves -/

/-- The operations that copying consists of. -/
def FileOp.copies : FileOp → Bool
  | .createDir _ => true
  | .readDir _ => true
  | .copyFile _ _ => true
  | .syncFile _ => true
  | .syncDir _ => true
  | .createNew _ => false
  | .write _ _ => false

/-- The table that operations leave when all of them are performed. -/
def laid (ops : List FileOp) (table : Option Listing) : Option Listing :=
  ops.foldl (fun found op => op.effect found) table

theorem laid_append (first second : List FileOp) (table : Option Listing) :
    laid (first ++ second) table = laid second (laid first table) :=
  List.foldl_append

theorem FileOp.effect_of_copies {op : FileOp} (copies : op.copies = true) (table : Listing) :
    ∃ next, op.effect (some table) = some next := by
  cases op with
  | createDir path => exact ⟨_, rfl⟩
  | readDir path => exact ⟨_, rfl⟩
  | copyFile path bytes => exact ⟨_, rfl⟩
  | syncFile path => exact ⟨_, rfl⟩
  | syncDir path => exact ⟨_, rfl⟩
  | createNew path => cases copies
  | write path bytes => cases copies

/-- Operations that were all performed leave what was laid. -/
theorem Session.disk_performAll (fails : FileOp → Bool) (name : String) (ops : List FileOp)
    (s : Session) (done : (s.performAll fails name ops).2 = true) :
    (s.performAll fails name ops).1.disk name = laid ops (s.disk name) := by
  induction ops generalizing s with
  | nil => rfl
  | cons op rest ih =>
    cases performed : s.attempt (fails op) (.within name op) with
    | none =>
      rw [performAll_stopped performed] at done
      cases done
    | some next =>
      rw [performAll_next performed] at done ⊢
      obtain ⟨_, left, effect, rfl⟩ := attempt_eq_some.mp performed
      obtain ⟨table, found, rfl⟩ := DiskOp.effect_within effect
      rw [ih _ done]
      simp [laid, found]

/-- Copying inside a directory that is there goes through if no operation fails. -/
theorem Session.performAll_of_copies (fails : FileOp → Bool) (name : String) (ops : List FileOp)
    (s : Session) (present : (s.disk name).isSome) (copies : ∀ op ∈ ops, op.copies = true) :
    (s.performAll fails name ops).2 = true ↔ ∀ op ∈ ops, fails op = false := by
  induction ops generalizing s with
  | nil => exact ⟨fun _ => List.forall_mem_nil _, fun _ => rfl⟩
  | cons op rest ih =>
    obtain ⟨table, found⟩ := Option.isSome_iff_exists.mp present
    obtain ⟨next, effect⟩ := FileOp.effect_of_copies (copies op List.mem_cons_self) table
    have later := (List.forall_mem_cons.mp copies).2
    cases failing : fails op with
    | true =>
      rw [performAll_stopped (attempt_eq_none.mpr (.inl failing))]
      simp [failing]
    | false =>
      have performed : s.attempt (fails op) (.within name op) =
          some (s.move (Function.update s.disk name (some next))) := by
        simp [attempt, failing, DiskOp.effect, found, effect]
      rw [performAll_next performed, List.forall_mem_cons]
      refine (ih _ (by simp) later).trans ?_
      exact (and_iff_right failing).symm

mutual

theorem Node.copies_copied (target : Path) :
    ∀ (node : Node), ∀ op ∈ node.copied target, op.copies = true
  | .file bytes, op, member => by
    simp only [Node.copied, List.mem_cons, List.not_mem_nil, or_false] at member
    rcases member with rfl | rfl <;> rfl
  | .special, op, member => by
    simp [Node.copied] at member
  | .directory entries, op, member => by
    simp only [Node.copied, List.mem_cons, List.mem_append, List.not_mem_nil, or_false] at member
    rcases member with rfl | rfl | inside | rfl
    · rfl
    · rfl
    · exact Entries.copies_copied target entries op inside
    · rfl

theorem Entries.copies_copied (target : Path) :
    ∀ (entries : Entries), ∀ op ∈ entries.copied target, op.copies = true
  | .nil, op, member => by
    simp [Entries.copied] at member
  | .cons name node rest, op, member => by
    rw [Entries.copied, List.mem_append] at member
    rcases member with first | later
    · exact Node.copies_copied (target ++ [name]) node op first
    · exact Entries.copies_copied target rest op later

end

theorem lookup_cons (path other : Path) (stored : Stored) (table : Listing) :
    ((path, stored) :: table : Listing).lookup other =
      if other = path then some stored else table.lookup other := by
  by_cases same : other = path
  · simp [List.lookup, same]
  · have test : (other == path) = false := beq_eq_false_iff_ne.mpr same
    simp only [List.lookup_cons, test, if_neg same]

/-- Below the target lies the node over what was there; the rest is as it was. -/
structure NodeLaid (node : Node) (target : Path) (table next : Listing) : Prop where
  below : ∀ path, next.lookup (target ++ path) =
    (node.stored path).or (table.lookup (target ++ path))
  apart : ∀ path, ¬ target <+: path → next.lookup path = table.lookup path

structure EntriesLaid (entries : Entries) (target : Path) (table next : Listing) : Prop where
  below : ∀ name path, next.lookup (target ++ name :: path) =
    (entries.stored name path).or (table.lookup (target ++ name :: path))
  apart : ∀ path, (∀ name rest, path ≠ target ++ name :: rest) →
    next.lookup path = table.lookup path

mutual

theorem Node.laid_copied (target : Path) (table : Listing) :
    ∀ node : Node, ∃ next, laid (node.copied target) (some table) = some next ∧
      NodeLaid node target table next
  | .file bytes => by
    refine ⟨(target, .file bytes) :: table, rfl, fun path => ?_, fun path apart => ?_⟩
    · rw [lookup_cons]
      cases path with
      | nil => simp [Node.stored]
      | cons name rest => simp [Node.stored]
    · rw [lookup_cons, if_neg]
      rintro rfl
      exact apart List.prefix_rfl
  | .special => ⟨table, rfl, fun path => by simp [Node.stored], fun _ _ => rfl⟩
  | .directory entries => by
    obtain ⟨next, left, inside⟩ :=
      Entries.laid_copied target ((target, .directory) :: table) entries
    refine ⟨next, ?_, fun path => ?_, fun path apart => ?_⟩
    · have opened : laid (Node.copied target (.directory entries)) (some table) =
          laid (entries.copied target ++ [.syncDir target])
            (some ((target, .directory) :: table)) := by
        rw [Node.copied]
        rfl
      rw [opened, laid_append, left]
      rfl
    · cases path with
      | nil =>
        rw [List.append_nil, inside.apart target (by simp), lookup_cons, if_pos rfl]
        rfl
      | cons name rest =>
        rw [inside.below name rest, lookup_cons, if_neg (by simp), Node.stored]
    · have beyond : ∀ name rest, path ≠ target ++ name :: rest := by
        rintro name rest rfl
        exact apart (List.prefix_append _ _)
      rw [inside.apart path beyond, lookup_cons, if_neg]
      rintro rfl
      exact apart List.prefix_rfl

theorem Entries.laid_copied (target : Path) (table : Listing) :
    ∀ entries : Entries, ∃ next, laid (entries.copied target) (some table) = some next ∧
      EntriesLaid entries target table next
  | .nil => ⟨table, rfl, fun _ _ => by simp [Entries.stored], fun _ _ => rfl⟩
  | .cons first node rest => by
    obtain ⟨middle, left, here⟩ := Node.laid_copied (target ++ [first]) table node
    obtain ⟨next, left', later⟩ := Entries.laid_copied target middle rest
    refine ⟨next, ?_, fun name path => ?_, fun path apart => ?_⟩
    · rw [Entries.copied, laid_append, left, left']
    · rw [later.below name path, Entries.stored, Option.or_assoc]
      by_cases same : first = name
      · subst same
        have found := here.below path
        rw [List.append_assoc, List.singleton_append] at found
        rw [found, if_pos rfl]
      · rw [if_neg same, Option.none_or, here.apart]
        rintro ⟨tail, equal⟩
        rw [List.append_assoc, List.singleton_append, List.append_cancel_left_eq] at equal
        exact same (List.cons.inj equal).1
    · rw [later.apart path apart, here.apart]
      rintro ⟨tail, rfl⟩
      exact apart first tail (by simp)

end

/-! ## Copying a directory onto nothing -/

theorem Session.performAll_isSome (fails : FileOp → Bool) (name : String) (ops : List FileOp)
    (s : Session) (present : (s.disk name).isSome) :
    ((s.performAll fails name ops).1.disk name).isSome := by
  induction ops generalizing s with
  | nil => exact present
  | cons op rest ih =>
    cases performed : s.attempt (fails op) (.within name op) with
    | none => exact (performAll_stopped performed).symm ▸ present
    | some next =>
      rw [performAll_next performed]
      obtain ⟨_, left, effect, rfl⟩ := attempt_eq_some.mp performed
      obtain ⟨table, _, rfl⟩ := DiskOp.effect_within effect
      exact ih _ (by simp)

/-- A listing with the directory and its entries below it. -/
def Listing.Shows (table : Listing) (entries : Entries) : Prop :=
  ∀ path, table.lookup path = (Node.directory entries).stored path

theorem Listing.Shows.bytes {table : Listing} {entries : Entries} (shown : table.Shows entries)
    (path : Path) : table.bytes path = (Node.directory entries).bytes path := by
  rw [Listing.bytes, shown path, Node.bytes]

/-- What copying a directory lays where there was nothing. -/
theorem laid_directory (entries : Entries) :
    ∃ table, laid ((Node.directory entries).copied []) none = some table ∧ table.Shows entries := by
  obtain ⟨next, left, inside⟩ := Entries.laid_copied [] [([], .directory)] entries
  refine ⟨next, ?_, fun path => ?_⟩
  · have opened : laid (Node.copied [] (.directory entries)) none =
        laid (entries.copied [] ++ [.syncDir []]) (some [([], .directory)]) := by
      rw [Node.copied]
      rfl
    rw [opened, laid_append, left]
    rfl
  · cases path with
    | nil => exact inside.apart [] (by simp)
    | cons name rest =>
      have found := inside.below name rest
      rw [List.nil_append, lookup_cons, if_neg (by simp)] at found
      simpa [Node.stored, List.lookup] using found

/-- Copying a directory onto nothing: it goes through if no operation fails, and it leaves nothing only if
the directory itself could not be created. -/
theorem Session.performAll_directory (fails : FileOp → Bool) (name : String) (entries : Entries)
    {s : Session} (nothing : s.disk name = none) :
    ((s.performAll fails name ((Node.directory entries).copied [])).2 = true ↔
        ∀ op ∈ (Node.directory entries).copied [], fails op = false) ∧
      ((s.performAll fails name ((Node.directory entries).copied [])).1.disk name = none ↔
        fails (.createDir []) = true) := by
  have copies := Node.copies_copied [] (.directory entries)
  rw [Node.copied] at copies ⊢
  cases failing : fails (.createDir []) with
  | true =>
    rw [performAll_stopped (attempt_eq_none.mpr (.inl failing))]
    refine ⟨⟨nofun, fun all => ?_⟩, by simp [nothing]⟩
    rw [all _ List.mem_cons_self] at failing
    cases failing
  | false =>
    have performed : s.attempt (fails (.createDir [])) (.within name (.createDir [])) =
        some (s.move (Function.update s.disk name (some [([], .directory)]))) := by
      simp [attempt, failing, DiskOp.effect, FileOp.effect, nothing]
    rw [performAll_next performed]
    refine ⟨?_, ?_⟩
    · refine (performAll_of_copies fails name
        (.readDir [] :: (entries.copied [] ++ [.syncDir []]))
        (s.move (Function.update s.disk name (some [([], .directory)]))) (by simp)
        (List.forall_mem_cons.mp copies).2).trans ?_
      constructor
      · intro held op member
        rcases List.mem_cons.mp member with rfl | later
        · exact failing
        · exact held op later
      · intro held op member
        exact held op (List.mem_cons_of_mem _ member)
    · have kept := performAll_isSome fails name
        (.readDir [] :: (entries.copied [] ++ [.syncDir []]))
        (s.move (Function.update s.disk name (some [([], .directory)]))) (by simp)
      simp only [Bool.false_eq_true, iff_false]
      intro missing
      rw [missing] at kept
      cases kept

end Foundation.Directories
