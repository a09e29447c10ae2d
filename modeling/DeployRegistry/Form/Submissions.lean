import DeployRegistry.Form.Sha
import DeployRegistry.Resolution.Criteria
import DeployRegistry.Text.WordChar

/-!
# Submissions

What callers submit: a new project, member, environment or deployment, and the criteria of a
search. Each is read from the fields of an object; fields that a submission does not have are
passed over.
-/

namespace DeployRegistry.Form

set_option autoImplicit false

open Text

structure NewProject where
  name : String
  repository : Option String
  visibility : Visibility
  deriving DecidableEq, Inhabited

structure NewMember where
  user : String
  role : Role
  deriving DecidableEq, Inhabited

structure NewEnvironment where
  name : String
  deriving DecidableEq, Inhabited

structure NewDeployment where
  environment : String
  ref : String
  tag : Bool
  sha : String
  status : DeployStatus
  time : Option Stamp
  deriving DecidableEq, Inhabited

/-- Names of projects, environments and refs have one to 255 characters. -/
def nameBounds : TextBounds := ⟨1, some 255, none⟩

def isSegmentChar (c : Char) : Bool := isWordChar c || c == '.' || c == '-'

def isSegment (cs : List Char) : Bool := decide (cs ≠ []) && cs.all isSegmentChar

/-- The full name of a repository: its owner, a slash and its name. -/
def isRepositoryName (cs : List Char) : Bool :=
  match pieces (· == '/') cs with
  | [owner, name] => isSegment owner && isSegment name
  | _ => false

def repositoryBounds : TextBounds := ⟨0, some 255, some ⟨"^[\\w.-]+/[\\w.-]+$", isRepositoryName⟩⟩

/-- A ref that is looked for may be empty. -/
def soughtRefBounds : TextBounds := ⟨0, some 255, none⟩

def newProject : Model NewProject where
  name := "ProjectCreate"
  fields ms := NewProject.mk
    <$> required ms "name" nameBounds.rule
    <*> optional ms "repo_full_name" repositoryBounds.rule
    <*> withDefault ms "visibility" (word Visibility) .members

def newMember : Model NewMember where
  name := "ProjectMemberCreate"
  fields ms := NewMember.mk
    <$> required ms "user_id" (TextBounds.rule ⟨1, none, none⟩)
    <*> withDefault ms "role" (word Role) .developer

def newEnvironment : Model NewEnvironment where
  name := "EnvironmentCreate"
  fields ms := NewEnvironment.mk <$> required ms "name" nameBounds.rule

def newDeployment : Model NewDeployment where
  name := "DeploymentCreate"
  fields ms := NewDeployment.mk
    <$> required ms "environment" nameBounds.rule
    <*> required ms "ref" nameBounds.rule
    <*> withDefault ms "tag" switch false
    <*> required ms "sha" recordedSha
    <*> withDefault ms "status" (word DeployStatus) .success
    <*> optional ms "deployed_at" moment

/-- A commit that is looked for. -/
def commit : Model String where
  name := "CommitRef"
  fields ms := required ms "sha" soughtSha

def criteria : Model Criteria where
  name := "EnvironmentsByDeploymentsParams"
  fields ms := Criteria.mk
    <$> optional ms "ref" soughtRefBounds.rule
    <*> optional ms "commit" commit.rule
    <*> withDefault ms "find_latest" switch false
    <*> withDefault ms "with_tags" switch false
    <*> withDefault ms "recently_updated" switch false

end DeployRegistry.Form
