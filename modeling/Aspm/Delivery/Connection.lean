import Mathlib

/-!
# Connections and notifications

The rows of `integration_connections` with the targets of each profile, and what a delivery tells
about a finding.
-/

namespace Aspm.Delivery

abbrev Text := List Char

inductive Profile where
  | slackWorkspaceBot
  | teamsWorkflows
  | jiraCloudV3
  | genericWebhookV1
deriving DecidableEq

abbrev WorkerID := String

structure JiraTarget where
  credentialType : Text
  cloudID : Text
  apiBase : Text
  siteOrigin : Text
  project : Text
  issueType : Text
  fieldMappings : List (Text × Text)
deriving DecidableEq

structure TeamsMetadata where
  workflowOrigin : Text
  channelType : Text
  ownershipAcknowledged : Bool
deriving DecidableEq

structure TeamsDestination where
  name : Text
  metadata : TeamsMetadata
deriving DecidableEq

structure WebhookTarget where
  origin : Text
  path : Text
  signature : Text
deriving DecidableEq

/-- A row of `integration_connections`. -/
structure Connection where
  profile : Profile
  name : Text
  channel : Text
  enabled : Bool
  revision : ℕ
  jira : Option JiraTarget
  teams : Option TeamsMetadata
  webhook : Option WebhookTarget
  ciphertext : Text
deriving DecidableEq

structure FindingNotification where
  title : Text
  body : Text
  deepLink : Text
  fields : Option (List (Text × Text))
deriving DecidableEq

end Aspm.Delivery
