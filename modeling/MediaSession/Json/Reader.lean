import MediaSession.Json.Outline
import MediaSession.Json.Refusal

/-!
Readers walk an outline from left to right and give a value of a type, or the first trouble they meet.
Where a value is read from decides how much of it has been looked at before.
-/
namespace MediaSession.Json

/-- Where a value is read from. -/
inductive Origin where
  /-- The text itself, in which `room` further lists and records may be opened. -/
  | text (room : Nat)
  /-- A value set aside until the tag beside it was known. -/
  | setAside
  /-- A finished tree. -/
  | tree
deriving DecidableEq

/-- A text allows lists and records to be nested this deep. -/
def Origin.wholeText : Origin := .text 127

/-- Origin of the parts of a list or record. -/
def Origin.inner : Origin → Except Refusal Origin
  | text 0 => .error (.fault .malformed)
  | text (room + 1) => .ok (text room)
  | origin => .ok origin

abbrev Reader (α : Type) : Type := Origin → Outline → Except Refusal α

namespace Outline

/-- Fault that keeps a list or record from being closed, if there is one. -/
def checkStop (stop : Option Fault) : Except Refusal Unit :=
  match stop with
  | none => .ok ()
  | some fault => .error (.fault fault)

/-- Pass over a value unread. -/
def skip (node : Outline) : Except Refusal Unit := checkStop node.skipFault?

/-- What a value is, for a reader that has no use for it. -/
def found : Outline → Except Refusal Found
  | spoiled fault => .error (.fault fault.value)
  | null => .ok .null
  | bool value => .ok (.bool value)
  | number literal =>
    match literal.integer? with
    | some value => .ok (.integer value)
    | none => if literal.double?.isSome then .ok (.double literal) else .error (.fault .malformed)
  | text (some content) => .ok (.text content)
  | text none => .error (.fault .malformed)
  | list _ _ => .ok .list
  | record _ _ => .ok .record

/-- Refuse a value of the wrong type. -/
def refuse (node : Outline) (expected : String) : Except Refusal α := do
  let found ← node.found
  .error (.mismatch (.wrongType found expected))

/-- A string at the place of a key. -/
def asKey : Outline → Except Refusal String
  | text (some content) => .ok content
  | spoiled fault => .error (.fault fault.string)
  | _ => .error (.fault .malformed)

/-- Check all of a value that is set aside; `room` bounds its nesting. -/
def settle : Nat → Outline → Except Refusal Unit
  | 0, list _ _ => .error (.fault .malformed)
  | 0, record _ _ => .error (.fault .malformed)
  | room + 1, list items stop => do
    items.forM (settle room)
    checkStop stop
  | room + 1, record members stop => do
    members.forM fun member => do
      let _ ← member.1.asKey
      settle room member.2
    checkStop stop
  | _, node => do
    let _ ← node.found

/-- Set a value aside; only values of a text have not been checked yet. -/
def setAside (origin : Origin) (node : Outline) : Except Refusal Unit :=
  match origin with
  | .text room => node.settle room
  | _ => .ok ()

end Outline

namespace Reader

def integer (lower upper : Int) (expected : String) : Reader Int := fun _ node =>
  match node with
  | .number literal =>
    match literal.integer? with
    | some value =>
      if lower ≤ value ∧ value ≤ upper then .ok value
      else .error (.mismatch (.wrongValue (.integer value) expected))
    | none => node.refuse expected
  | _ => node.refuse expected

/-- A count in the size of a machine word. -/
def count (expected : String) : Reader Nat := fun origin node => do
  let value ← integer 0 0xFFFFFFFFFFFFFFFF expected origin node
  return value.toNat

def bool : Reader Bool := fun _ node =>
  match node with
  | .bool value => .ok value
  | _ => node.refuse "a boolean"

/-- A string taken for `expected`. -/
def textAs (expected : String) : Reader String := fun _ node =>
  match node with
  | .text (some content) => .ok content
  | _ => node.refuse expected

def text : Reader String := textAs "a string"

/-- `null` is the absent value. -/
def option (reader : Reader α) : Reader (Option α) := fun origin node =>
  match node with
  | .null => .ok none
  | _ => do return some (← reader origin node)

def list (reader : Reader α) : Reader (List α) := fun origin node =>
  match node with
  | .list items stop => do
    let inner ← origin.inner
    let values ← items.mapM (reader inner)
    Outline.checkStop stop
    return values
  | _ => node.refuse "a sequence"

/-- The value that goes by a name. -/
def variant (choices : List (String × α)) (name : String) : Except Refusal α :=
  match choices.lookup name with
  | some value => .ok value
  | none => .error (.mismatch (.unknownVariant name (choices.map Prod.fst)))

/-- A name of a choice; a value that was set aside may also give its number. -/
def variantName (choices : List (String × α)) : Reader α := fun origin node =>
  match node with
  | .text (some name) => variant choices name
  | .number literal =>
    match origin, literal.integer? with
    | .setAside, some (.ofNat place) =>
      match choices[place]? with
      | some choice => .ok choice.2
      | none =>
        let range := s!"variant index 0 <= i < {choices.length}"
        .error (.mismatch (.wrongValue (.integer place) range))
    | _, _ => node.refuse "variant identifier"
  | _ => node.refuse "variant identifier"

/-- What may stand beside the name of a choice that holds nothing. -/
def nothing : Reader Unit := fun origin node =>
  match origin, node with
  | _, .null => .ok ()
  | .setAside, .record [] none => .ok ()
  | _, _ => node.refuse "unit"

/-- One of some names, alone or as the key of a record that holds `null`. -/
def choice (choices : List (String × α)) : Reader α := fun origin node =>
  match origin, node with
  | _, .text (some name) => variant choices name
  | .text _, .record [] stop => do
    Outline.checkStop stop
    .error (.fault .malformed)
  | .text _, .record ((key, value) :: rest) stop => do
    let inner ← origin.inner
    let picked ← variantName choices inner key
    nothing inner value
    match rest with
    | [] => Outline.checkStop stop
    | _ => .error (.fault .malformed)
    return picked
  | .text _, .spoiled fault => .error (.fault fault.string)
  | .text _, _ => .error (.fault .malformed)
  | _, .record [(key, value)] _ => do
    let picked ← variantName choices origin key
    nothing origin value
    return picked
  | _, .record _ _ => .error (.mismatch (.wrongValue .record "map with a single key"))
  | _, _ => node.refuse "string or map"

/-- A field of a record that is put together in a draft `σ`. -/
structure Field (σ : Type) where
  name : String
  isSet : σ → Bool
  set : Origin → Outline → σ → Except Refusal σ

/-- A field given by a reader for its value. -/
def Field.of (name : String) (get : σ → Option α) (put : α → σ → σ) (reader : Reader α) :
    Field σ where
  name
  isSet draft := (get draft).isSome
  set origin node draft := do return put (← reader origin node) draft

/-- Members by name; a field may come once, and other members are passed over. -/
def fillMembers (fields : List (Field σ)) (origin : Origin) :
    List (Outline × Outline) → σ → Except Refusal σ
  | [], draft => .ok draft
  | (key, value) :: rest, draft => do
    let name ← key.asKey
    match fields.find? (·.name = name) with
    | none => do
      value.skip
      fillMembers fields origin rest draft
    | some field =>
      if field.isSet draft then .error (.mismatch (.duplicateField name))
      else do fillMembers fields origin rest (← field.set origin value draft)

/-- Items in the order of the fields; also how many fields were filled, and the items left. -/
def fillItems (origin : Origin) : List (Field σ) → List Outline → Nat → σ →
    Except Refusal (σ × Nat × List Outline)
  | field :: fields, item :: items, filled, draft => do
    fillItems origin fields items (filled + 1) (← field.set origin item draft)
  | _, items, filled, draft => .ok (draft, filled, items)

/-- The name of a record type, and how many fields it has. -/
def elements (label : String) (size : Nat) : String :=
  if size = 1 then s!"{label} with 1 element" else s!"{label} with {size} elements"

/-- Refuse items behind the last field. -/
def checkRest (origin : Origin) (filled : Nat) (rest : List Outline) : Except Refusal Unit :=
  if rest.isEmpty then .ok ()
  else match origin with
    | .text _ => .error (.fault .malformed)
    | .setAside =>
      let expected := if filled = 1 then "1 element in sequence" else s!"{filled} elements in sequence"
      .error (.mismatch (.wrongLength (filled + rest.length) expected))
    | .tree => .error (.mismatch (.wrongLength (filled + rest.length) "fewer elements in array"))

/-- How a record type is read: its fields, and what a draft of it becomes. -/
structure Layout (σ α : Type) where
  label : String
  fields : List (Field σ)
  start : σ
  finish : σ → Except Mismatch α
  /-- Whether a list may end before the last field. -/
  mayEndEarly : Bool := false

def Layout.close (layout : Layout σ α) (draft : σ) : Except Refusal α :=
  (layout.finish draft).mapError .mismatch

/-- A record, or its fields as a list. -/
def layout (layout : Layout σ α) : Reader α := fun origin node =>
  match node with
  | .record members stop => do
    let draft ← fillMembers layout.fields (← origin.inner) members layout.start
    Outline.checkStop stop
    layout.close draft
  | .list items stop => do
    let (draft, filled, rest) ← fillItems (← origin.inner) layout.fields items 0 layout.start
    if filled = layout.fields.length then do
      let value ← layout.close draft
      checkRest origin filled rest
      Outline.checkStop stop
      return value
    else do
      Outline.checkStop stop
      if layout.mayEndEarly then layout.close draft
      else .error (.mismatch (.wrongLength filled (elements layout.label layout.fields.length)))
  | _ => node.refuse layout.label

/-- A field that has to be there. -/
def required (name : String) : Option α → Except Mismatch α
  | some value => .ok value
  | none => .error (.missingField name)

/-- Find the tag among the members; the others are set aside in order. -/
def findTag (tag : String) (choices : List (String × α)) (origin : Origin) :
    List (Outline × Outline) → Option α → List (Outline × Outline) →
    Except Refusal (Option α × List (Outline × Outline))
  | [], picked, others => .ok (picked, others.reverse)
  | (key, value) :: rest, picked, others => do
    let name ← key.asKey
    if name = tag then
      if picked.isSome then .error (.mismatch (.duplicateField tag))
      else do findTag tag choices origin rest (some (← variantName choices origin value)) others
    else do
      value.setAside origin
      findTag tag choices origin rest picked ((key, value) :: others)

/-- A record whose member `tag` says how to read the others, or a list that starts with the tag. -/
def tagged (label tag : String) (choices : List (String × Reader α)) : Reader α := fun origin node =>
  match node with
  | .record members stop => do
    let (picked, others) ← findTag tag choices (← origin.inner) members none []
    Outline.checkStop stop
    match picked with
    | none => .error (.mismatch (.missingField tag))
    | some reader => reader .setAside (.record others none)
  | .list [] stop => do
    let _ ← origin.inner
    Outline.checkStop stop
    .error (.mismatch (.missingField tag))
  | .list (first :: rest) stop => do
    let inner ← origin.inner
    let reader ← variantName choices inner first
    rest.forM (Outline.setAside inner)
    Outline.checkStop stop
    reader .setAside (.list rest none)
  | _ => node.refuse label

/-- A variant without fields; members beside the tag are passed over. -/
def noFields (value : α) : Reader α := fun _ node =>
  match node with
  | .list items _ => do
    checkRest .setAside 0 items
    return value
  | _ => .ok value

/-- Read the tree of an outline. -/
def ofTree (reader : Reader α) (node : Outline) : Except Refusal α := reader .tree node.sorted

/-- Read all of a text; nothing but blanks may follow the value. -/
def ofText (reader : Reader α) (text : String) : Except Refusal α :=
  let (node, more) := Outline.ofText text.toList
  do
    let value ← reader .wholeText node
    if more then .error (.fault .malformed) else return value

end Reader

end MediaSession.Json
