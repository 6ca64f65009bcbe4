import AgentArtifacts.Protocol.Paths
import AgentArtifacts.InstallState.Model

/-!
# Profiles

The mapping from artifact kinds to harness destinations and its projection to
the user scope. The projection of a target resolves its paths against the home
directory and keeps everything else.
-/

namespace AgentArtifacts

structure CopyTarget where
  dir : String
deriving DecidableEq

structure GuidelineTarget where
  dest : String
deriving DecidableEq

structure MergeSpec where
  file : String
  jsonPath : String
  mode : MergeMode
  identity : List String := []
  entryTemplate : Option Dict := none
deriving DecidableEq

structure HookTarget where
  scriptsDir : String
  merge : MergeSpec
deriving DecidableEq

inductive MemoryTargetKind where
  | file
  | dir
deriving DecidableEq

structure MemoryTarget where
  kind : MemoryTargetKind
  dest : String
deriving DecidableEq

structure ProfileTargets where
  skills : Option CopyTarget := none
  guidelines : Option GuidelineTarget := none
  mcp : Option MergeSpec := none
  hooks : Option HookTarget := none
  memory : Option MemoryTarget := none
deriving DecidableEq

structure Profile where
  name : Slug
  targets : ProfileTargets
  user : Option ProfileTargets := none
deriving DecidableEq

/-! ## The user scope -/

/-- One explicit user target resolved against a normalized home directory. -/
def userPath (path home : String) : String :=
  let resolved :=
    if path = "~" then home
    else if startsWith "~/" path then normPath (joinPath home (String.ofList (path.toList.drop 2)))
    else if isAbs path then normPath path
    else normPath (joinPath home path)
  if endsWith "/" path && !endsWith "/" resolved then resolved ++ "/" else resolved

def MergeSpec.forUser (spec : MergeSpec) (home : String) : MergeSpec :=
  { spec with file := userPath spec.file home }

def HookTarget.forUser (target : HookTarget) (home : String) : HookTarget :=
  ⟨userPath target.scriptsDir home, target.merge.forUser home⟩

def ProfileTargets.forUser (targets : ProfileTargets) (home : String) : ProfileTargets where
  skills := targets.skills.map fun target => ⟨userPath target.dir home⟩
  guidelines := targets.guidelines.map fun target => ⟨userPath target.dest home⟩
  mcp := targets.mcp.map (·.forUser home)
  hooks := targets.hooks.map (·.forUser home)
  memory := targets.memory.map fun target => ⟨target.kind, userPath target.dest home⟩

/-- Project targets are used as they stand; a profile without user targets
supports nothing in the user scope. -/
def profileForScope (profile : Profile) (scope : InstallScope) (userHome : String) : ProfileTargets :=
  match scope with
  | .project => profile.targets
  | .user => (profile.user.getD {}).forUser userHome

end AgentArtifacts
