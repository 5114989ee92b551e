import PathWatch.Keyed
import PathWatch.Number.Binary64

/-!
The tables of a TOML document and the rules by which its lines fill them. A
table may be opened once, and only by one of the ways to write it: a dotted key
reaches into tables that dotted keys made, a header into tables that other
headers took for granted, and a table in braces is closed for good.
-/
namespace PathWatch.Toml

inductive Scalar
  | boolean (value : Bool)
  | integer (value : Int)
  | float (value : Number.Binary64)
  | string (value : String)
  | datetime (text : String)
deriving DecidableEq, Repr

inductive TableKind
  | inline
  | dotted
  | implied
  | declared
deriving DecidableEq, Repr

inductive Item
  | scalar (value : Scalar)
  | array (items : List Item)
  | table (kind : TableKind) (entries : List (String × Item))
  | tables (rows : List (List (String × Item)))
deriving Repr

abbrev Entries := List (String × Item)

namespace Entries

def replace (k : String) (item : Item) (es : Entries) : Entries :=
  es.map fun e => if e.1 = k then (k, item) else e

/-- Adds a pair below a dotted key. `here` says whether this table may take it. -/
def put (name : String) (item : Item) : List String → (here : Bool) → Entries → Option Entries
  | [], here, es =>
    if here && (es.lookup name).isNone then some (es ++ [(name, item)]) else none
  | k :: path, _, es =>
    match es.lookup k with
    | none => return es ++ [(k, .table .dotted (← put name item path true []))]
    | some (.table .dotted t) => return es.replace k (.table .dotted (← put name item path true t))
    | some (.table .implied t) => return es.replace k (.table .implied (← put name item path false t))
    | some (.tables rows) =>
      match rows.getLast? with
      | none => none
      | some t => return es.replace k (.tables (rows.dropLast ++ [← put name item path false t]))
    | some _ => none

/-- Changes the table that a header's path leads to; of an array of tables that
is the last one. -/
def within (f : Entries → Option (α × Entries)) : List String → Entries → Option (α × Entries)
  | [], es => f es
  | k :: path, es =>
    match es.lookup k with
    | none => do
      let (a, t) ← within f path []
      return (a, es ++ [(k, .table .implied t)])
    | some (.table .inline _) => none
    | some (.table kind t) => do
      let (a, t) ← within f path t
      return (a, es.replace k (.table kind t))
    | some (.tables rows) => do
      let (a, t) ← within f path (← rows.getLast?)
      return (a, es.replace k (.tables (rows.dropLast ++ [t])))
    | some _ => none

end Entries

inductive Line
  | pair (path : List String) (name : String) (item : Item)
  | header (path : List String) (name : String)
  | element (path : List String) (name : String)
deriving Repr

inductive Place
  | top
  | table (path : List String) (name : String)
  | element (path : List String) (name : String)
deriving Repr

/-- A document on the way: `body` is not part of `root` until its place is left. -/
structure Draft where
  root : Entries := []
  place : Place := .top
  body : Entries := []
deriving Repr

namespace Draft

def close (d : Draft) : Option Entries :=
  match d.place with
  | .top => some d.body
  | .table path name =>
    Prod.snd <$> Entries.within
      (fun es => some ((), Keyed.erase name es ++ [(name, .table .declared d.body)])) path d.root
  | .element path name =>
    Prod.snd <$> Entries.within (fun es =>
      match es.lookup name with
      | none => some ((), es ++ [(name, .tables [d.body])])
      | some (.tables rows) => some ((), Entries.replace name (.tables (rows ++ [d.body])) es)
      | some _ => none) path d.root

/-- A table that was only taken for granted may still be opened, and then moves to the end. -/
def reopen (name : String) (es : Entries) : Option (Entries × Entries) :=
  match es.lookup name with
  | none => some ([], es)
  | some (.table .implied t) => some (t, Keyed.erase name es)
  | some _ => none

def startElement (name : String) (es : Entries) : Option (Unit × Entries) :=
  match es.lookup name with
  | none => some ((), es ++ [(name, .tables [])])
  | some (.tables _) => some ((), es)
  | some _ => none

def add (d : Draft) : Line → Option Draft
  | .pair path name item => return { d with body := ← Entries.put name item path true d.body }
  | .header path name => do
    let (body, root) ← Entries.within (reopen name) path (← d.close)
    return { root, place := .table path name, body }
  | .element path name => do
    let (_, root) ← Entries.within (startElement name) path (← d.close)
    return { root, place := .element path name, body := [] }

end Draft

def ofLines (lines : List Line) : Option Entries := do
  (← lines.foldlM Draft.add {}).close

def ofPairs (pairs : List (List String × String × Item)) : Option Entries :=
  pairs.foldlM (fun es p => Entries.put p.2.1 p.2.2 p.1 true es) []

end PathWatch.Toml
