import MediaSession.Text.Blank

/-!
Session configuration. Any values can be put together; whether they are usable is checked on its own.
-/
namespace MediaSession

open Text

/-- When an index verifies its own tables. -/
inductive SelfCheck where
  /-- On explicit request only. -/
  | never
  /-- After every insert, remove and clear. -/
  | onMutation
deriving DecidableEq, Repr

structure SessionConfig where
  /-- Name of the root object. -/
  rootName : String := "model-root"
  selfCheck : SelfCheck := .never
  /-- Bound for chains of scopes walked upwards. -/
  maxPathDepth : Nat := 1024
deriving DecidableEq, Repr

/-- Values that can not be used. -/
inductive ConfigFault where
  | blankRootName
  | zeroPathDepth
deriving DecidableEq, Repr

namespace ConfigFault

def message : ConfigFault → String
  | blankRootName => "invalid configuration: root_name must not be empty"
  | zeroPathDepth => "invalid configuration: max_path_depth must be positive"

end ConfigFault

namespace SessionConfig

/-- The root name is not blank, and chains of scopes may have a length. -/
def validate (config : SessionConfig) : Except ConfigFault Unit :=
  if Blank.isBlankText config.rootName then .error .blankRootName
  else if config.maxPathDepth = 0 then .error .zeroPathDepth
  else .ok ()

/-- The policy in effect. -/
def effectiveSelfCheck (config : SessionConfig) : SelfCheck := config.selfCheck

end SessionConfig

end MediaSession
