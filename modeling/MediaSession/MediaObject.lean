import MediaSession.PlacementId
import MediaSession.Time

/-!
Objects that can be placed into a session, and the types they can be viewed as. The kind of an object
never changes; every object can be viewed as any object, and else only as what it is.
-/
namespace MediaSession

open Text

inductive MediaObject where
  /-- Root of a session model. -/
  | root (name : String)
  /-- A fork in the processing structure, such as a track. -/
  | fork (name : String)
  | clip (media : String) (length : Time)
  | effect (plugin : String)
  /-- A sequence bound at a further place; the sequence keeps its own single scope. -/
  | binding (sequence : PlacementId)
  /-- Plain object for trials. -/
  | dummy (tag : UInt32)
  /-- Objects for trials of two further kinds. -/
  | sub1 (label : String)
  | sub2 (label : String)
deriving DecidableEq

namespace MediaObject

/-- Stable tag of the kind. -/
def kind : MediaObject → String
  | root _ => "root"
  | fork _ => "fork"
  | clip _ _ => "clip"
  | effect _ => "effect"
  | binding _ => "binding"
  | dummy _ => "dummy"
  | sub1 _ => "test-sub-1"
  | sub2 _ => "test-sub-2"

/-- Short text for people. -/
def shortId : MediaObject → String
  | root name => s!"Root({name})"
  | fork name => s!"Fork({name})"
  | clip media _ => s!"Clip({media})"
  | effect plugin => s!"Effect({plugin})"
  | binding sequence => let short := sequence.short; s!"Binding({short})"
  | dummy tag => s!"DummyMO({tag})"
  | sub1 label => s!"TestSubMO1({label})"
  | sub2 label => s!"TestSubMO2({label})"

/-- Self-check: a fork has a name and a clip a positive length. -/
def isValid : MediaObject → Bool
  | fork name => name ≠ ""
  | clip _ length => 0 < length.micros
  | _ => true

/-- The scope that can be reached through this object's place. -/
def attachedScope? : MediaObject → Option PlacementId
  | binding sequence => some sequence
  | _ => none

/-- Structural form with all fields. -/
def debug : MediaObject → String
  | root name => let shown := Quoted.string name; s!"ModelRoot \x7b name: {shown} \x7d"
  | fork name => let shown := Quoted.string name; s!"Fork \x7b name: {shown} \x7d"
  | clip media length =>
    let shown := Quoted.string media
    let micros := length.micros
    s!"Clip \x7b media: {shown}, length: Time({micros}) \x7d"
  | effect plugin => let shown := Quoted.string plugin; s!"Effect \x7b plugin: {shown} \x7d"
  | binding sequence => let shown := sequence.debug; s!"Binding \x7b sequence: {shown} \x7d"
  | dummy tag => s!"DummyMO \x7b tag: {tag} \x7d"
  | sub1 label => let shown := Quoted.string label; s!"TestSubMO1 \x7b label: {shown} \x7d"
  | sub2 label => let shown := Quoted.string label; s!"TestSubMO2 \x7b label: {shown} \x7d"

end MediaObject

/-- Types an object can be viewed as. -/
inductive ViewType where
  | any
  | root
  | fork
  | clip
  | effect
  | binding
  | dummy
  | sub1
  | sub2
deriving DecidableEq, Repr

namespace ViewType

def all : List ViewType := [any, root, fork, clip, effect, binding, dummy, sub1, sub2]

/-- Short name. -/
def name : ViewType → String
  | any => "any"
  | root => "root"
  | fork => "fork"
  | clip => "clip"
  | effect => "effect"
  | binding => "binding"
  | dummy => "dummy"
  | sub1 => "sub1"
  | sub2 => "sub2"

/-- The type of a short name. -/
def ofName? (name : String) : Option ViewType := all.find? fun view => view.name = name

/-- Name used in messages. -/
def typeName : ViewType → String
  | any => "MObject"
  | root => "mos_model::mobject::ModelRoot"
  | fork => "mos_model::mobject::Fork"
  | clip => "mos_model::mobject::Clip"
  | effect => "mos_model::mobject::Effect"
  | binding => "mos_model::mobject::Binding"
  | dummy => "mos_test_utils::DummyMO"
  | sub1 => "mos_test_utils::TestSubMO1"
  | sub2 => "mos_test_utils::TestSubMO2"

end ViewType

/-- The type of an object itself. -/
def MediaObject.type : MediaObject → ViewType
  | root _ => .root
  | fork _ => .fork
  | clip _ _ => .clip
  | effect _ => .effect
  | binding _ => .binding
  | dummy _ => .dummy
  | sub1 _ => .sub1
  | sub2 _ => .sub2

/-- An object with the identity its owners share. -/
structure SharedObject where
  identity : Nat
  content : MediaObject
deriving DecidableEq

namespace ViewType

/-- An object as it is seen under a type: any object as any, else only what is of the type. -/
def view (type : ViewType) (object : MediaObject) : Option MediaObject :=
  match type with
  | any => some object
  | type => if object.type = type then some object else none

/-- A further share of an object, held under a type. -/
def share (type : ViewType) (object : SharedObject) : Option SharedObject :=
  match type with
  | any => some object
  | type => if object.content.type = type then some object else none

/-- Whether an object can be viewed as this type. -/
def admits (type : ViewType) (object : MediaObject) : Bool := (type.view object).isSome

/-- An object can be shared under the types it can be viewed as. -/
theorem share_eq (type : ViewType) (object : SharedObject) :
    type.share object = if type.admits object.content then some object else none := by
  unfold share admits view
  split
  · rfl
  · split <;> rfl

theorem admits_iff (type : ViewType) (object : MediaObject) :
    type.admits object = true ↔ type = .any ∨ object.type = type := by
  unfold admits view
  split
  · simp
  · rename_i other
    simpa using (or_iff_right other).symm

end ViewType

/-- Objects are of one type if they are of one kind. -/
theorem MediaObject.type_eq_iff (a b : MediaObject) : a.type = b.type ↔ a.kind = b.kind := by
  cases a <;> cases b <;> simp [type, kind]

end MediaSession
