import AbilityFramework.LifecycleMgr.Heartbeat

/-! # Ability CRs

An `AbilityCR` is a template from which instances are made, or the snapshot of it that an instance
keeps.  `position` is the node it lives on, `version` the version as `to_string` writes it. -/

namespace AbilityFramework.ResourceMgr

open LifecycleMgr

structure AbilitySpec where
  package : String
  version : String
  abilityName : String
  position : String
  autoStart : Option Bool
  keepAlive : Option Bool
  singleton : Option Bool
  deriving DecidableEq, Repr

structure Metadata where
  name : String
  deriving DecidableEq, Repr

structure RunInfo where
  lifecycleState : LifecycleState
  deriving DecidableEq, Repr

/-- An ability CR, whose spec may be missing. -/
structure AbilityCR where
  id : Uuid
  metadata : Metadata
  spec : Option AbilitySpec
  runInfo : Option RunInfo
  deriving DecidableEq, Repr

end AbilityFramework.ResourceMgr
