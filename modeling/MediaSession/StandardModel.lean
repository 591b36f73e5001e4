import MediaSession.Index

/-!
The standard model for trials: two timelines that bind one sequence, with a fork and an effect inside.
-/
namespace MediaSession

/-- Identities of the standard model, by role. -/
structure StandardModel where
  timeline1 : PlacementId
  timeline2 : PlacementId
  binding1 : PlacementId
  binding2 : PlacementId
  clip : PlacementId
  sequence : PlacementId
  fork : PlacementId
  sub1 : PlacementId
  sub2 : PlacementId
  effect : PlacementId

namespace StandardModel

/-- Every object with its identity and scope, each behind the scope it belongs to. -/
def layout (model : StandardModel) (root : PlacementId) :
    List (PlacementId × MediaObject × PlacementId) :=
  [(model.timeline1, .fork "timeline1", root),
   (model.timeline2, .fork "timeline2", root),
   (model.sequence, .fork "sequence", root),
   (model.binding1, .binding model.sequence, model.timeline1),
   (model.binding2, .binding model.sequence, model.timeline2),
   (model.clip, .clip "clip" (.ofSeconds 10), model.timeline1),
   (model.fork, .fork "fork", model.sequence),
   (model.sub1, .sub1 "start", model.fork),
   (model.sub2, .sub2 "other", model.fork),
   (model.effect, .effect "blur", model.sequence)]

end StandardModel

end MediaSession
