import Pmx.Library.Cxx

/-!
# Names of services and nodes

The services that the console asks systemd for, and the nodes whose links it checks and
whose parameters are watched.
-/

namespace Pmx.Constants

open Cxx

/-- `all_services`. -/
def allServices : List Str :=
  [lit "pipewire.service", lit "wireplumber.service", lit "pmx-filter-chain-ctrl.service",
    lit "pmx-grpc-api.service", lit "pmx-metadata-manager.service",
    lit "pmx-midi-router.service", lit "pmx-osc-network-receiver.service",
    lit "pmx-osc-network-sender.service", lit "pmx-traktor-z1-router.service",
    lit "pmx-filter-chains.service", lit "pmx-jack-midi-clock.service",
    lit "pmx-osc-sl-network-receiver.service", lit "pmx-osc-sl-network-sender.service",
    lit "pmx-sooperlooper.service", lit "pmx-slp-ctrl.service", lit "pmx-lp-mini-init.service"]

/-- `pmx_osc_producer_node_names`. -/
def producerNames : List Str :=
  [lit "pmx-midi-router", lit "pmx-osc-network-receiver", lit "pmx-traktor-z1-router"]

/-- `pmx_osc_consumer_node_names`. -/
def consumerNames : List Str :=
  [lit "pmx-filter-chain-ctrl", lit "pmx-osc-network-sender"]

/-- `filter_chain_node_names`. -/
def filterChainNodeNames : List Str :=
  [lit "pmx-layer-channels-ins", lit "pmx-layer-channels-outs", lit "pmx-group-channels-a-ins",
    lit "pmx-group-channels-b-ins", lit "pmx-group-channels-a-outs",
    lit "pmx-group-channels-b-outs", lit "pmx-input-channels-ins", lit "pmx-input-channels-outs"]

end Pmx.Constants
