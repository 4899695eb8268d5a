/-!
TOML documents as trees, and how their lines put them together. A table remembers how it came
about, since that decides what may still be added to it: a table that a header opened can be opened
only once, a table made by dotted keys is added to by dotted keys alone, and an inline table is
closed. Floats and dates have no use here, so their values are not kept.
-/

namespace SignalPaths.Toml

/-- How a table came about: by its own header, as a table above another one's header, by a dotted
key, or in braces. -/
inductive Form where
  | explicit | implicit | dotted | inline
  deriving DecidableEq, Repr

/-- Integers lie between the negative of this bound and the bound, which is none itself. -/
def integerBound : Nat := 0x8000000000000000

inductive Item where
  | string (text : String)
  | integer (n : Int)
  | boolean (b : Bool)
  | float
  | dateTime
  | array (items : List Item)
  | table (form : Form) (entries : List (String × Item))
  | tables (elements : List (List (String × Item)))

abbrev Entries := List (String × Item)

namespace Entries

/-- Gives a new item to a key that has one. -/
def set (entries : Entries) (key : String) (item : Item) : Entries :=
  entries.map fun entry => if entry.1 = key then (key, item) else entry

/-- Applies a change to the last of some tables. -/
def changeLast (change : Entries → Option Entries) : List Entries → Option (List Entries)
  | [] => none
  | [last] => (change last).map fun changed => [changed]
  | first :: rest => (changeLast change rest).map (first :: ·)

/-- Adds an item under a dotted key. The tables on the way are made if they are missing. The last
one has to come from dotted keys too; the others may also be open ones that headers made. -/
def insert (item : Item) (key : String) : (path : List String) → Entries → Option Entries
  | [], entries =>
    if (entries.lookup key).isSome then none else some (entries ++ [(key, item)])
  | first :: path, entries =>
    match entries.lookup first with
    | none => (insert item key path []).map fun inner => entries ++ [(first, .table .dotted inner)]
    | some (.table .dotted inner) =>
      (insert item key path inner).map fun inner => entries.set first (.table .dotted inner)
    | some (.table .implicit inner) =>
      if path.isEmpty then none
      else (insert item key path inner).map fun inner => entries.set first (.table .implicit inner)
    | some (.tables elements) =>
      if path.isEmpty then none
      else (changeLast (insert item key path) elements).map fun elements =>
        entries.set first (.tables elements)
    | _ => none

/-- Changes the table that a path of headers leads to. An array of tables leads to its last one. -/
def within (change : Entries → Option Entries) : (path : List String) → Entries → Option Entries
  | [], entries => change entries
  | first :: path, entries =>
    match entries.lookup first with
    | none => (within change path []).map fun inner => entries ++ [(first, .table .implicit inner)]
    | some (.table .inline _) => none
    | some (.table form inner) =>
      (within change path inner).map fun inner => entries.set first (.table form inner)
    | some (.tables elements) =>
      (changeLast (within change path) elements).map fun elements =>
        entries.set first (.tables elements)
    | _ => none

/-- Collects the entries of an inline table. -/
def ofPairs (pairs : List (List String × String × Item)) : Option Entries :=
  pairs.foldlM (fun entries (path, key, item) => Entries.insert item key path entries) []

/-- Opens a table by its header. -/
def openTable (key : String) (entries : Entries) : Option Entries :=
  match entries.lookup key with
  | none => some (entries ++ [(key, .table .explicit [])])
  | some (.table .implicit inner) => some (entries.set key (.table .explicit inner))
  | _ => none

/-- Opens another table of an array of tables. -/
def openElement (key : String) (entries : Entries) : Option Entries :=
  match entries.lookup key with
  | none => some (entries ++ [(key, .tables [[]])])
  | some (.tables elements) => some (entries.set key (.tables (elements ++ [[]])))
  | _ => none

/-- Changes a table, or the last table of an array of tables. -/
def changeOpen (change : Entries → Option Entries) (key : String) (entries : Entries) :
    Option Entries :=
  match entries.lookup key with
  | some (.table form inner) =>
    (change inner).map fun inner => entries.set key (.table form inner)
  | some (.tables elements) =>
    (changeLast change elements).map fun elements => entries.set key (.tables elements)
  | _ => none

end Entries

/-- The place to which the lines of a document are added: the document itself, a table, or the
last table of an array. -/
inductive Place where
  | root
  | table (path : List String) (key : String)
  | element (path : List String) (key : String)
  deriving DecidableEq, Repr

namespace Place

/-- Opens the place that a header names. -/
def enter (document : Entries) : Place → Option Entries
  | root => some document
  | table path key => Entries.within (Entries.openTable key) path document
  | element path key => Entries.within (Entries.openElement key) path document

/-- Changes the table at a place that was opened. -/
def change (f : Entries → Option Entries) (document : Entries) : Place → Option Entries
  | root => f document
  | table path key => Entries.within (Entries.changeOpen f key) path document
  | element path key => Entries.within (Entries.changeOpen f key) path document

end Place

inductive Line where
  | header (place : Place)
  | entry (path : List String) (key : String) (item : Item)

/-- Adds a line to the document and the place it is at. -/
def addLine (state : Entries × Place) : Line → Option (Entries × Place)
  | .header place => (place.enter state.1).map fun document => (document, place)
  | .entry path key item =>
    (state.2.change (Entries.insert item key path) state.1).map fun document => (document, state.2)

/-- The document that lines make, if each of them may stand where it does. -/
def ofLines (lines : List Line) : Option Entries :=
  (lines.foldlM addLine ([], .root)).map Prod.fst

end SignalPaths.Toml
