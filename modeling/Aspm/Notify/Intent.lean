import Aspm.Notify.Policy

/-!
# What a delivery is made of

`policyFindingDelivery` makes a delivery from a policy and a change of a finding.  It writes
nothing: it is a function of the rows that were read.
-/

namespace Aspm.Notify

open Json (Text byteLength)
open Delivery (Profile Connection JiraTarget TeamsMetadata TeamsDestination WebhookTarget
  FindingNotification)

inductive Trigger where
  | manual
  | notificationPolicy (policyID : ID) (policyRevision findingChangeRevision : ℕ)
deriving DecidableEq

structure FindingDelivery where
  id : ID
  findingID : ID
  connectionID : ID
  connectionRevision : ℕ
  profile : Profile
  channel : Text
  requestedBy : Text
  payload : FindingNotification
  jira : Option JiraTarget
  destination : Option TeamsDestination
  webhook : Option WebhookTarget
  trigger : Trigger
deriving DecidableEq

/-- How the server is set up, with the checks and digests that read nothing but what they are
given. -/
structure Config where
  workspace : Text
  publicOrigin : Text
  queryEscape : Text → Text
  validJiraTarget : JiraTarget → Bool
  validTeamsMetadata : TeamsMetadata → Bool
  validWebhookTarget : WebhookTarget → Bool
  webhookOriginAllowed : Text → Bool
  integrationChannel : Text → Bool
  teamsPayloadValid : FindingNotification → Bool
  /-- The digest of the delivery, in hexadecimal digits. -/
  deliveryBinding : FindingDelivery → Text
  /-- The digest of a digest and a key. -/
  keyedBinding : Text → Text → Text

namespace Config

variable (config : Config)

/-! ## Payloads -/

/-- What a payload says about a finding. -/
structure FindingText where
  id : ID
  title : Text
  severity : Severity
  assetName : Text
deriving DecidableEq

def severityText : Severity → Text
  | .critical => "critical".toList
  | .high => "high".toList
  | .medium => "medium".toList
  | .low => "low".toList
  | .info => "info".toList

def changeKindText : ChangeKind → Text
  | .new => "new".toList
  | .changed => "changed".toList
  | .reopened => "reopened".toList

def deepLink (findingID : ID) : Text :=
  config.publicOrigin ++ "/#/work?finding=".toList ++ config.queryEscape findingID.val

def payloadBody (finding : FindingText) (change : Option ChangeKind) : Text :=
  "Severity: ".toList ++ severityText finding.severity ++ "\nAsset: ".toList ++
    finding.assetName ++
    match change with
    | none => []
    | some kind => "\nChange: ".toList ++ changeKindText kind

/-- The value of a mapped Jira field; other sources leave the field out. -/
def fieldValue (finding : FindingText) (source : Text) : Option Text :=
  if source = "finding.id".toList then some finding.id.val
  else if source = "finding.title".toList then some finding.title
  else if source = "finding.severity".toList then some (severityText finding.severity)
  else if source = "asset.name".toList then some finding.assetName
  else if source = "finding.deepLink".toList then some (config.deepLink finding.id)
  else none

def jiraFields (finding : FindingText) (target : JiraTarget) : List (Text × Text) :=
  target.fieldMappings.filterMap fun mapping =>
    (config.fieldValue finding mapping.2).map fun value => (mapping.1, value)

def payload (finding : FindingText) (change : Option ChangeKind) : FindingNotification where
  title := finding.title
  body := payloadBody finding change
  deepLink := config.deepLink finding.id
  fields := none

/-- The delivery before the profile adds its own. -/
def draft (id : ID) (finding : FindingText) (change : Option ChangeKind) (connectionID : ID)
    (connection : Connection) (requestedBy : Text) (trigger : Trigger) : FindingDelivery where
  id := id
  findingID := finding.id
  connectionID := connectionID
  connectionRevision := connection.revision
  profile := connection.profile
  channel := connection.channel
  requestedBy := requestedBy
  payload := config.payload finding change
  jira := connection.jira
  destination := none
  webhook := connection.webhook
  trigger := trigger

def withFields (finding : FindingText) (delivery : FindingDelivery) : FindingDelivery :=
  { delivery with
    payload := { delivery.payload with
      fields := some ((delivery.jira.map (config.jiraFields finding)).getD []) } }

def withDestination (connection : Connection) (delivery : FindingDelivery) : FindingDelivery :=
  { delivery with
    destination := connection.teams.map fun teams => ⟨connection.name, teams⟩ }

/-! ## A delivery that a policy asks for -/

def policyFindingDelivery (id : ID) (event : ChangeEvent) (revision : Revision)
    (connection : Connection) : Option FindingDelivery :=
  let finding : FindingText := ⟨event.findingID, event.title, event.severity, event.assetName⟩
  let delivery := config.draft id finding (some event.changeKind) revision.connectionID connection
    revision.actorID
    (.notificationPolicy revision.policyID revision.revision event.changeRevision)
  if config.publicOrigin = [] || !validText event.title 1024 || !validText event.assetName 256 then
    none
  else
    match connection.profile with
    | .slackWorkspaceBot =>
      if !config.integrationChannel connection.channel || connection.jira.isSome ||
          connection.teams.isSome then none
      else some delivery
    | .jiraCloudV3 =>
      if !connection.jira.any config.validJiraTarget || connection.channel ≠ [] ||
          255 < event.title.length then none
      else some (config.withFields finding delivery)
    | .teamsWorkflows =>
      let delivery := withDestination connection delivery
      if connection.jira.isSome || connection.channel ≠ [] ||
          !connection.teams.any config.validTeamsMetadata ||
          !config.teamsPayloadValid delivery.payload then none
      else some delivery
    | .genericWebhookV1 =>
      if connection.jira.isSome || connection.teams.isSome || connection.channel ≠ [] ||
          !connection.webhook.any (fun webhook => config.validWebhookTarget webhook &&
            config.webhookOriginAllowed webhook.origin) then none
      else some delivery

end Config

/-! ## A workspace to look at -/

section Example

/-- An identifier of one repeated digit. -/
def repeatedID (c : Char) (hex : hexChar c = true) : ID :=
  ⟨List.replicate 32 c, by simp [validID, hex]⟩

theorem hexChar_a : hexChar 'a' = true := rfl
theorem hexChar_f : hexChar 'f' = true := rfl

def policyA : ID := repeatedID 'a' hexChar_a
def findingB : ID := repeatedID 'b' rfl
def jiraC : ID := repeatedID 'c' rfl
def eventD : ID := repeatedID 'd' rfl
def deliveryF : ID := repeatedID 'f' hexChar_f

/-- A server that accepts every format. -/
def lenient : Config where
  workspace := ['w']
  publicOrigin := ['o']
  queryEscape := fun t => t
  validJiraTarget := fun _ => true
  validTeamsMetadata := fun _ => true
  validWebhookTarget := fun _ => true
  webhookOriginAllowed := fun _ => true
  integrationChannel := fun _ => true
  teamsPayloadValid := fun _ => true
  deliveryBinding := fun _ => List.replicate 64 '0'
  keyedBinding := fun binding key => binding ++ key

end Example

end Aspm.Notify
