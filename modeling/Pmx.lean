import Pmx.Agreement
import Pmx.BufferConservation
import Pmx.ConnectGroupToLayer
import Pmx.ConnectMidiPorts
import Pmx.ConnectOscPorts
import Pmx.Console
import Pmx.Console.Commands
import Pmx.Console.Setup
import Pmx.Console.Status
import Pmx.Constants
import Pmx.ControlWatcher
import Pmx.CtrlPipe
import Pmx.FilterChainCtrl
import Pmx.FilterChainCtrl.Delivery
import Pmx.FilterChainCtrl.Feed
import Pmx.FilterChainCtrl.Independence
import Pmx.FilterChainCtrl.MixControl
import Pmx.FilterChainCtrl.Names
import Pmx.FilterChainCtrl.Packets
import Pmx.FilterChainCtrl.Wiring
import Pmx.FilterGraph
import Pmx.FilterGraph.Links
import Pmx.FilterGraph.Mixers
import Pmx.GroupRouting
import Pmx.GrpcService
import Pmx.InputRouting
import Pmx.Library.BigEndian
import Pmx.Library.BoundedFifo
import Pmx.Library.BufferUse
import Pmx.Library.Cxx
import Pmx.Library.DeltaEncoding
import Pmx.Library.GreedyMatch
import Pmx.Library.IdleCall
import Pmx.Library.LinkTable
import Pmx.Library.Lua
import Pmx.Library.Mailbox
import Pmx.Library.Patchbay
import Pmx.Library.PodBuilder
import Pmx.Library.Relay
import Pmx.Library.SignalGraph
import Pmx.Library.SpaPod
import Pmx.Library.Transducer
import Pmx.Library.Transition
import Pmx.Library.UpsertList
import Pmx.Library.WaitNotify
import Pmx.LooperControl
import Pmx.LpMiniInit
import Pmx.ManageConnections
import Pmx.ManageConnections.GroupLinks
import Pmx.ManageConnections.InputLinks
import Pmx.ManageConnections.InputLinks.Mirror
import Pmx.ManageConnections.OutputLinks
import Pmx.ManageConnections.Session
import Pmx.MetadataCalls
import Pmx.MetadataManager
import Pmx.MetadataManager.ConfigFile
import Pmx.MetadataManager.Events
import Pmx.MetadataManager.Mirror
import Pmx.MetadataManager.Startup
import Pmx.MidiControl
import Pmx.MidiRouter
import Pmx.MidiRouter.Cuts
import Pmx.MidiRouter.Routable
import Pmx.MidiRouter.Threads
import Pmx.Osc.Faults
import Pmx.Osc.Grammar
import Pmx.Osc.Message
import Pmx.Osc.Path
import Pmx.OscNetwork
import Pmx.OscNetworkReceiver
import Pmx.OscNetworkSender
import Pmx.Parameters
import Pmx.ParamsWatcher
import Pmx.PipewireTools
import Pmx.Ports
import Pmx.ProxyCollection
import Pmx.ProxyWatcher
import Pmx.ProxyWatcher.Parameters
import Pmx.ProxyWatcher.Registry
import Pmx.ProxyWatcher.Watchers
import Pmx.SetUpFilterChain
import Pmx.Settings
import Pmx.SlpCtrl
import Pmx.SlpCtrl.Bars
import Pmx.SlpCtrl.Commands
import Pmx.SlpCtrl.GroupChannelSooperLoopers
import Pmx.SlpCtrl.Leds
import Pmx.SlpCtrl.Presses
import Pmx.TraktorControl
import Pmx.TraktorZ1
import Pmx.TraktorZ1.Delta
import Pmx.Ump
import Pmx.Ump.Sysex
import Pmx.Wakeup
