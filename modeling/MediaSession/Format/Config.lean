import MediaSession.Config
import MediaSession.Json.Reader
import MediaSession.Json.Value

/-!
Interchange form of session configurations. Missing fields take their defaults; a configuration that is
loaded has to be usable, one that is merely read has not.
-/
namespace MediaSession

open Json

namespace SelfCheck

def choices : List (String × SelfCheck) := [("never", never), ("on_mutation", onMutation)]

def name : SelfCheck → String
  | never => "never"
  | onMutation => "on_mutation"

def toValue (policy : SelfCheck) : Value := .text policy.name

def reader : Reader SelfCheck := Reader.choice choices

end SelfCheck

namespace SessionConfig

def toValue (config : SessionConfig) : Value :=
  .record [("root_name", .text config.rootName), ("self_check", config.selfCheck.toValue),
    ("max_path_depth", .count config.maxPathDepth)]

structure Draft where
  rootName : Option String := none
  selfCheck : Option SelfCheck := none
  maxPathDepth : Option Nat := none

def Draft.finish (draft : Draft) : SessionConfig where
  rootName := draft.rootName.getD "model-root"
  selfCheck := draft.selfCheck.getD .never
  maxPathDepth := draft.maxPathDepth.getD 1024

def fields : List (Reader.Field Draft) :=
  [.of "root_name" Draft.rootName (fun value draft => { draft with rootName := some value })
    Reader.text,
   .of "self_check" Draft.selfCheck (fun value draft => { draft with selfCheck := some value })
    SelfCheck.reader,
   .of "max_path_depth" Draft.maxPathDepth
    (fun value draft => { draft with maxPathDepth := some value }) (Reader.count "usize")]

def reader : Reader SessionConfig :=
  Reader.layout
    { label := "struct SessionConfig", start := {}, fields, mayEndEarly := true
      finish := fun draft => .ok draft.finish }

/-- Why a configuration can not be loaded. -/
inductive LoadError where
  | unreadable (refusal : Refusal)
  | unusable (fault : ConfigFault)
deriving DecidableEq

/-- Load a configuration from its text. -/
def load (text : String) : Except LoadError SessionConfig := do
  let config ← (Reader.ofText reader text).mapError .unreadable
  config.validate.mapError .unusable
  return config

end SessionConfig

end MediaSession
