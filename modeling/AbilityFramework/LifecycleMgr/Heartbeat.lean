import AbilityFramework.Uuid

/-! # Heartbeats

What an ability process reports about itself, as far as the framework acts on it. -/

namespace AbilityFramework.LifecycleMgr

inductive LifecycleState where
  | unknown
  | inactive
  | init
  | standby
  | running
  | suspend
  | terminated
  | error
  deriving DecidableEq, Repr

structure Heartbeat where
  id : Uuid
  state : LifecycleState
  ipcPort : UInt16
  abilityPort : UInt16
  deriving DecidableEq, Repr

end AbilityFramework.LifecycleMgr
