import Nteract.Recovery.Manifest

namespace Nteract.Identity

open Recovery

inductive AuthError
  | EmptyPrincipal
  | PrincipalContainsSlash
  | PrincipalMissingScheme
  | PrincipalEmptyScheme
  | PrincipalEmptyId
  | EmptyOperator
  | EmptyOperatorKind
  | OperatorContainsSlash
  | ActorLabelMissingDelimiter
deriving DecidableEq

def cutAt (delimiter : Char) : List Char → Option (List Char × List Char)
  | [] => none
  | char :: rest =>
    if char = delimiter then some ([], rest)
    else (cutAt delimiter rest).map fun (head, tail) => (char :: head, tail)

def splitOnce (delimiter : Char) (value : String) : Option (String × String) :=
  (cutAt delimiter value.toList).map fun (head, tail) => (String.ofList head, String.ofList tail)

def startsWith (start value : String) : Bool := start.toList.isPrefixOf value.toList

def SYSTEM : String := "system"

def checkPrincipal (value : String) : Except AuthError Unit :=
  if value = "" then
    .error .EmptyPrincipal
  else if '/' ∈ value.toList then
    .error .PrincipalContainsSlash
  else if value = SYSTEM then
    .ok ()
  else
    match splitOnce ':' value with
    | none => .error .PrincipalMissingScheme
    | some (scheme, id) =>
      if scheme = "" then .error .PrincipalEmptyScheme
      else if id = "" then .error .PrincipalEmptyId
      else .ok ()

def checkOperator (value : String) : Except AuthError Unit :=
  if value = "" then .error .EmptyOperator
  else if '/' ∈ value.toList then .error .OperatorContainsSlash
  else if startsWith ":" value then .error .EmptyOperatorKind
  else .ok ()

structure Principal where
  value : String
  valid : checkPrincipal value = .ok ()

structure Operator where
  value : String
  valid : checkOperator value = .ok ()

def Principal.new (value : String) : Except AuthError Principal :=
  match hv : checkPrincipal value with
  | .ok () => .ok ⟨value, hv⟩
  | .error error => .error error

def Operator.new (value : String) : Except AuthError Operator :=
  match hv : checkOperator value with
  | .ok () => .ok ⟨value, hv⟩
  | .error error => .error error

-- `<principal>/<operator>`, cut at the first slash.
structure ActorLabel where
  principal : Principal
  operator : Operator

def ActorLabel.parse (value : String) : Except AuthError ActorLabel :=
  match splitOnce '/' value with
  | none => .error .ActorLabelMissingDelimiter
  | some (head, tail) => do
    let principal ← Principal.new head
    let operator ← Operator.new tail
    return ⟨principal, operator⟩

inductive ConnectionScope
  | Viewer
  | Editor
  | RuntimePeer
  | Owner
deriving DecidableEq

def ConnectionScope.allowsNotebookWrite : ConnectionScope → Bool
  | .Editor | .Owner => true
  | .Viewer | .RuntimePeer => false

inductive LegacyOperatorActorPolicy
  | Reject
  | AllowLocalSameUid
deriving DecidableEq

def LegacyOperatorActorPolicy.allowsOperatorOnly (principal : Principal) :
    LegacyOperatorActorPolicy → Bool
  | .Reject => false
  | .AllowLocalSameUid => startsWith "local:" principal.value

structure RoomConnectionIdentity where
  principal : Principal
  scope : ConnectionScope
  legacyOperatorActorPolicy : LegacyOperatorActorPolicy

def RoomConnectionIdentity.allowsNotebookWrite (identity : RoomConnectionIdentity) : Bool :=
  identity.scope.allowsNotebookWrite

def SCHEMA_SEED_ACTOR : String := "nteract:notebook-schema:v5"

-- The label of the actor of a change, and the changes of the genesis asset.
structure ChangeActors where
  actorLabel : ChangeHash → String
  canonicalSchemaSeedChangeHashes : List ChangeHash

inductive AdmissionError
  | WriteNotAllowed (scope : ConnectionScope)
  | PrincipalNotAuthorized (actor authenticated : String)
  | InvalidActorLabel (label : String) (error : AuthError)
deriving DecidableEq

variable (actors : ChangeActors) (identity : RoomConnectionIdentity)

def isCanonicalSchemaSeedChange (actorLabel : String) (hash : ChangeHash) : Bool :=
  actorLabel = SCHEMA_SEED_ACTOR ∧ hash ∈ actors.canonicalSchemaSeedChangeHashes

def validateActorLabel (label : String) : Except AdmissionError Unit :=
  match ActorLabel.parse label with
  | .ok actor =>
    if actor.principal.value = identity.principal.value then .ok ()
    else .error (.PrincipalNotAuthorized actor.principal.value identity.principal.value)
  | .error error =>
    if error = .ActorLabelMissingDelimiter ∧
        identity.legacyOperatorActorPolicy.allowsOperatorOnly identity.principal ∧
        checkOperator label = .ok () then
      .ok ()
    else
      .error (.InvalidActorLabel label error)

def validateNotebookChangeActors : List ChangeHash → Except AdmissionError Unit
  | [] => .ok ()
  | change :: changes =>
    if isCanonicalSchemaSeedChange actors (actors.actorLabel change) change then
      validateNotebookChangeActors changes
    else
      match validateActorLabel identity (actors.actorLabel change) with
      | .error error => .error error
      | .ok () => validateNotebookChangeActors changes

def admitNotebookChanges (changes : List ChangeHash) : Except AdmissionError (List ChangeHash) :=
  if changes ≠ [] ∧ identity.allowsNotebookWrite = false then
    .error (.WriteNotAllowed identity.scope)
  else
    match validateNotebookChangeActors actors identity changes with
    | .error error => .error error
    | .ok () => .ok changes

def Belongs (label : String) : Prop :=
  ∃ actor, ActorLabel.parse label = .ok actor ∧ actor.principal.value = identity.principal.value

-- A label without a principal, from a client of a local room.
def LegacyLabel (label : String) : Prop :=
  ActorLabel.parse label = .error .ActorLabelMissingDelimiter ∧
    identity.legacyOperatorActorPolicy = .AllowLocalSameUid ∧
    startsWith "local:" identity.principal.value = true ∧ checkOperator label = .ok ()

-- What admission lets through. The schema seed is not the sender's, whoever sends it.
def Admitted (change : ChangeHash) : Prop :=
  identity.allowsNotebookWrite = true ∧
    (Belongs identity (actors.actorLabel change) ∨
      LegacyLabel identity (actors.actorLabel change) ∨
      (actors.actorLabel change = SCHEMA_SEED_ACTOR ∧
        change ∈ actors.canonicalSchemaSeedChangeHashes))

variable {actors identity}

theorem validateActorLabel_ok (hv : validateActorLabel identity label = .ok ()) :
    Belongs identity label ∨ LegacyLabel identity label := by
  unfold validateActorLabel at hv
  cases hp : ActorLabel.parse label with
  | ok actor =>
    rw [hp] at hv
    by_cases he : actor.principal.value = identity.principal.value
    · exact .inl ⟨actor, hp, he⟩
    · simp [he] at hv
  | error =>
    rw [hp] at hv
    simp only at hv
    split at hv
    · rename_i hl
      obtain ⟨rfl, ha, ho⟩ := hl
      refine .inr ⟨hp, ?_⟩
      cases hpolicy : identity.legacyOperatorActorPolicy with
      | Reject => simp [hpolicy, LegacyOperatorActorPolicy.allowsOperatorOnly] at ha
      | AllowLocalSameUid =>
        rw [hpolicy] at ha
        exact ⟨rfl, ha, ho⟩
    · cases hv

theorem validateNotebookChangeActors_ok
    (hv : validateNotebookChangeActors actors identity changes = .ok ()) :
    ∀ change ∈ changes, Belongs identity (actors.actorLabel change) ∨
      LegacyLabel identity (actors.actorLabel change) ∨
      (actors.actorLabel change = SCHEMA_SEED_ACTOR ∧
        change ∈ actors.canonicalSchemaSeedChangeHashes) := by
  induction changes with
  | nil => intro change hc; cases hc
  | cons first _ ih =>
    unfold validateNotebookChangeActors at hv
    rw [List.forall_mem_cons]
    split at hv
    · rename_i hs
      have hs : actors.actorLabel first = SCHEMA_SEED_ACTOR ∧
          first ∈ actors.canonicalSchemaSeedChangeHashes := by
        simpa [isCanonicalSchemaSeedChange] using hs
      exact ⟨.inr (.inr hs), ih hv⟩
    · cases hl : validateActorLabel identity (actors.actorLabel first) with
      | error =>
        rw [hl] at hv
        cases hv
      | ok =>
        rw [hl] at hv
        exact ⟨(validateActorLabel_ok hl).imp_right .inl, ih hv⟩

theorem admitNotebookChanges_ok (ha : admitNotebookChanges actors identity changes = .ok admitted) :
    admitted = changes ∧ ∀ change ∈ changes, Admitted actors identity change := by
  unfold admitNotebookChanges at ha
  split at ha
  · cases ha
  · rename_i hs
    cases hv : validateNotebookChangeActors actors identity changes with
    | error =>
      rw [hv] at ha
      cases ha
    | ok =>
      rw [hv] at ha
      cases ha
      refine ⟨rfl, fun change hc => ⟨?_, validateNotebookChangeActors_ok hv change hc⟩⟩
      have hne : changes ≠ [] := List.ne_nil_of_mem hc
      by_contra hw
      exact hs ⟨hne, by simpa using hw⟩

end Nteract.Identity
