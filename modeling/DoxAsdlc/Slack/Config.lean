import DoxAsdlc.Core.Events
import Mathlib.Data.List.AList

/-!
# The configuration of the Slack bridge

A gate type is routed to a channel, with the role that decides there, and an environment may
route it elsewhere.  The dictionaries are kept in the order in which they are walked through.

## Main definitions

* `ChannelConfig`, `SlackBridgeConfig` — the configuration.
* `getChannelForGate` — the routing.
* `hasRole`, `canApproveGate` — who may decide.
-/

namespace DoxAsdlc.Slack

/-- A dictionary with texts as keys. -/
abbrev Dict (α : Type) := AList fun _ : String => α

/-- A channel, and the role that is required to decide the gates in it. -/
structure ChannelConfig where
  channelId : String
  requiredRole : String
  deriving DecidableEq, Repr

/-- The configuration of the bridge. -/
structure SlackBridgeConfig where
  routingPolicy : Dict ChannelConfig
  rbacMap : Dict (List String)
  environmentOverrides : Dict (Dict ChannelConfig) := ∅
  consumerGroup : String := "slack_bridge"
  consumerName : String := "bridge_1"
  hitlUiBaseUrl : String := "http://localhost:3000"

namespace SlackBridgeConfig

variable (config : SlackBridgeConfig)

/-- The override of an environment, if one is named that has one. -/
def override (gateType : String) (environment : Option String) : Option ChannelConfig :=
  (given environment).bind fun environment =>
    ((config.environmentOverrides.lookup environment).getD ∅).lookup gateType

/-- `RoutingPolicy.get_channel_for_gate`. -/
def getChannelForGate (gateType : String) (environment : Option String := none) :
    Option ChannelConfig :=
  match config.override gateType environment with
  | some channel => some channel
  | none => config.routingPolicy.lookup gateType

/-- `RBACValidator.has_role`. -/
def hasRole (slackUserId requiredRole : String) : Bool :=
  ((config.rbacMap.lookup slackUserId).getD []).contains requiredRole

/-- `RBACValidator.can_approve_gate`. -/
def canApproveGate (slackUserId : String) (channelConfig : ChannelConfig) : Bool :=
  config.hasRole slackUserId channelConfig.requiredRole

end SlackBridgeConfig
end DoxAsdlc.Slack
