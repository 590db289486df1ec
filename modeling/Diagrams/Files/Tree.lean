import Diagrams.Files.Disk

/-!
# File trees

* `Entry`, `Tree` — files with their texts and folders, as they lie in the working folder.
* `Tree.kind?`, `Tree.read`, `Tree.addFolder`, `Tree.write` — what is at a path, and the three
  operations on it. With them a tree is a disk without links.
* `Tree.get?_set` says what setting an entry does to the entries.

The working folder is the folder of the empty path. The folders above it are there, but of what is
in them nothing else is known; no way leads from them back into the working folder. Absolute paths
lead to places apart from all these; of those only the root is there from the start.
-/

namespace Diagrams.Files

/-- What can be at a place. -/
inductive Entry where
  | file (text : String)
  | folder
  deriving DecidableEq, Repr

/-- The kind of an entry. -/
def Entry.kind : Entry → Kind
  | file _ => .file
  | folder => .folder

/-- The way to a place: from the working folder, or from the root. -/
structure Place where
  /-- Whether the way is one from the root. -/
  isAbsolute : Bool := false
  /-- The names on the way. From the working folder it may start with steps up. -/
  names : List String := []
  deriving DecidableEq, Repr

/-- Whether a place is the working folder, a folder above it, or the root. -/
def Place.isBase (place : Place) : Bool := place.names.all fun s => s == Path.up

/-- Whether a place is the working folder or in it. -/
def Place.isInside (place : Place) : Bool :=
  !place.isAbsolute && place.names.head? != some Path.up

/-- The place above. The root is above itself. -/
def Place.above (place : Place) : Place :=
  if place.isBase ∧ !place.isAbsolute then { place with names := place.names ++ [Path.up] }
  else { place with names := place.names.dropLast }

/-- The files and folders, later entries being older. -/
structure Tree where
  /-- The entries with their places. -/
  entries : List (Place × Entry) := []
  deriving DecidableEq, Repr

namespace Tree

/-- What is at a place. -/
def get? (t : Tree) (place : Place) : Option Entry :=
  if place.isBase then some .folder
  else (t.entries.find? fun e => e.1 = place).map (·.2)

/-- The tree with an entry at a place. -/
def set (t : Tree) (place : Place) (e : Entry) : Tree :=
  ⟨(place, e) :: t.entries.filter fun old => old.1 ≠ place⟩

/-- The place that a step leads to. -/
def step (place : Place) (s : String) : Place :=
  if Path.stays s then place
  else if s = Path.up then place.above
  else { place with names := place.names ++ [s] }

/-- The most bytes that a name may have. -/
def maxNameSize : Nat := 255

/-- The most bytes that a path may have. -/
def maxPathSize : Nat := 4095

/-- The most bytes that a file may have: offsets in a file are signed numbers of 64 bits. -/
def maxFileSize : Nat := 0x7FFFFFFFFFFFFFFF

/-- The place that the steps lead to. Every step starts from a folder; there may be nothing at the
place that the last one leads to. -/
def walk (t : Tree) (place : Place) : List String → Except Obstacle Place
  | [] => .ok place
  | s :: rest =>
    match t.get? place with
    | some .folder =>
      if maxNameSize < s.utf8ByteSize then .error .longName else walk t (step place s) rest
    | some (.file _) => .error .notFolder
    | none => .error .missing

/-- The place of a path. The empty text leads nowhere. -/
def place (t : Tree) (p : Path) : Except Obstacle Place :=
  if p.hasNull then .error .nullName
  else if p.text = "" then .error .missing
  else if maxPathSize < p.text.utf8ByteSize then .error .longName
  else t.walk ⟨p.isAbsolute, []⟩ p.steps

/-- The kind of what is at a path. Where the way breaks off nothing is; only names that are too long
make this question a wrong one. -/
def kind? (t : Tree) (p : Path) : Except FileError (Option Kind) :=
  match t.place p with
  | .ok place => .ok ((t.get? place).map Entry.kind)
  | .error .longName => .error ⟨.longName, p⟩
  | .error _ => .ok none

/-- The text of a file. -/
def read (t : Tree) (p : Path) : Except FileError String :=
  match t.place p with
  | .error o => .error ⟨o, p⟩
  | .ok place =>
    match t.get? place with
    | some (.file text) =>
      if maxFileSize < text.utf8ByteSize then .error ⟨.tooLarge, p⟩ else .ok text
    | some .folder => .error ⟨.isFolder, p⟩
    | none => .error ⟨.missing, p⟩

/-- The tree with a new folder, in a folder that is there. -/
def addFolder (t : Tree) (p : Path) : Except FileError Tree :=
  match t.place p with
  | .error o => .error ⟨o, p⟩
  | .ok place =>
    match t.get? place with
    | some _ => .error ⟨.present, p⟩
    | none => .ok (t.set place .folder)

/-- The tree with a text in a file, whether it was there before or not. -/
def write (t : Tree) (p : Path) (text : String) : Except FileError Tree :=
  match t.place p with
  | .error o => .error ⟨o, p⟩
  | .ok place =>
    match t.get? place with
    | some .folder => .error ⟨.isFolder, p⟩
    | _ =>
      if maxFileSize < text.utf8ByteSize then .error ⟨.tooLarge, p⟩
      else .ok (t.set place (.file text))

/-- The path from the root. Without links it is found by the steps alone. -/
def resolve (home : Path) (_ : Tree) (p : Path) : Except FileError Path :=
  if p.hasNull then .error ⟨.nullName, p⟩ else .ok (p.resolve home)

/-! ### Refusals -/

variable {t : Tree} {p : Path} {o : Obstacle} {e : FileError}

/-- What keeps a way from going on is told. -/
theorem isTold_of_walk {place : Place} {steps : List String}
    (h : t.walk place steps = .error o) : o.isTold = true := by
  induction steps generalizing place with
  | nil => cases h
  | cons s rest ih =>
    rw [walk] at h
    split at h
    · split at h
      · cases h
        rfl
      · exact ih h
    · cases h
      rfl
    · cases h
      rfl

/-- That a path leads nowhere is told, except for a null character. -/
theorem isOf_of_place (h : t.place p = .error o) : (⟨o, p⟩ : FileError).IsOf p := by
  unfold Tree.place at h
  split at h
  · rename_i hnull
    cases h
    exact .inr ⟨rfl, hnull⟩
  · split at h
    · cases h
      exact .inl rfl
    · split at h
      · cases h
        exact .inl rfl
      · exact .inl (isTold_of_walk h)

/-- So is what keeps a file from being read. -/
theorem isOf_of_read (h : t.read p = .error e) : e.IsOf p := by
  unfold read at h
  split at h
  · rename_i hplace
    cases h
    exact isOf_of_place hplace
  · split at h
    · split at h <;> cases h
      exact .inl rfl
    all_goals
      cases h
      exact .inl rfl

/-- So is what keeps a folder from being made. -/
theorem isOf_of_addFolder (h : t.addFolder p = .error e) : e.IsOf p := by
  unfold addFolder at h
  split at h
  · rename_i hplace
    cases h
    exact isOf_of_place hplace
  · split at h <;> cases h
    exact .inl rfl

/-- So is what keeps a file from being written. -/
theorem isOf_of_write {text : String} (h : t.write p text = .error e) : e.IsOf p := by
  unfold write at h
  split at h
  · rename_i hplace
    cases h
    exact isOf_of_place hplace
  · split at h
    · cases h
      exact .inl rfl
    · split at h <;> cases h
      exact .inl rfl

/-- Names that are too long are all that keeps anyone from looking. -/
theorem isTold_of_kind? (h : t.kind? p = .error e) : e.obstacle.isTold = true := by
  unfold kind? at h
  split at h <;> cases h
  rfl

/-- A path with a null character leads nowhere. -/
theorem kind?_of_hasNull (h : p.hasNull = true) : t.kind? p = .ok none := by
  rw [kind?, place, if_pos h]

/-- Nothing else keeps a path from leading somewhere. -/
theorem isOf_of_resolve {home : Path} (h : resolve home t p = .error e) : e.IsOf p := by
  unfold resolve at h
  split at h
  · rename_i hnull
    cases h
    exact .inr ⟨rfl, hnull⟩
  · cases h

instance : Disk Tree where
  look := kind?
  read := read
  addFolder := addFolder
  write := write
  resolve := resolve
  look_of_hasNull := kind?_of_hasNull
  isTold_of_look := isTold_of_kind?
  isOf_of_read := isOf_of_read
  isOf_of_addFolder := isOf_of_addFolder
  isOf_of_write := isOf_of_write
  isOf_of_resolve h := .inl (isOf_of_resolve h)

/-! ### Entries -/

/-- An entry just set is found, and entries at other places are kept. -/
theorem get?_set (t : Tree) (place : Place) (e : Entry) (other : Place)
    (h : other.isBase = false) :
    (t.set place e).get? other = if place = other then some e else t.get? other := by
  by_cases hp : place = other
  · simp [get?, set, h, hp]
  · simp only [get?, set, h, hp, List.find?_cons, decide_false, List.find?_filter]
    refine congrArg (Option.map Prod.snd) (congrArg (List.find? · t.entries) (funext fun x => ?_))
    by_cases hx : x.1 = other
    · simp [hx, Ne.symm hp]
    · simp [hx]

end Tree

end Diagrams.Files
