import Gritty.Bytes.Basic
import Gritty.Client.Basic
import Gritty.Client.Reconnect
import Gritty.Client.Step
import Gritty.Connect.Basic
import Gritty.Connect.Destination
import Gritty.Connect.Spawns
import Gritty.Connect.Step
import Gritty.Connect.Teardown
import Gritty.Connect.Window
import Gritty.Daemon.Basic
import Gritty.Daemon.Connections
import Gritty.Daemon.Conversation
import Gritty.Daemon.Designation
import Gritty.Daemon.Effects
import Gritty.Daemon.Farewell
import Gritty.Daemon.Finished
import Gritty.Daemon.Life
import Gritty.Daemon.Listing
import Gritty.Daemon.Names
import Gritty.Daemon.Progress
import Gritty.Daemon.Registry
import Gritty.Daemon.Replies
import Gritty.Daemon.Rows
import Gritty.Daemon.Step
import Gritty.Daemon.Table
import Gritty.Daemon.Tasks
import Gritty.FileTree.Basic
import Gritty.FileTree.Extends
import Gritty.LTS.Basic
import Gritty.LTS.History
import Gritty.LTS.Leads
import Gritty.LTS.Refine
import Gritty.Oneshot.Basic
import Gritty.Oneshot.Listing
import Gritty.Protocol.Codec
import Gritty.Protocol.Grammar
import Gritty.Protocol.RoundTrip
import Gritty.Protocol.SessionInfo
import Gritty.Protocol.Stream
import Gritty.Protocol.Wire
import Gritty.Registry.Basic
import Gritty.Security.Directory
import Gritty.Security.Socket
import Gritty.Server.Attached
import Gritty.Server.Basic
import Gritty.Server.Connections
import Gritty.Server.Conversation
import Gritty.Server.Environment
import Gritty.Server.ExitCode
import Gritty.Server.Farewell
import Gritty.Server.FirstFrame
import Gritty.Server.Input
import Gritty.Server.Output
import Gritty.Server.Step
import Gritty.Server.Survival
import Gritty.Server.Takeover
import Gritty.Server.Turns
import Gritty.Startup.Basic
import Gritty.Startup.Handshake
import Gritty.Startup.Single
import Gritty.Startup.Step
import Gritty.Stream.Decoder
import Gritty.Stream.Grammar
import Gritty.Stream.Offer
import Gritty.Stream.Turns
import Gritty.Stream.Wire
import Gritty.System.Agreement
import Gritty.System.Basic
import Gritty.System.Commands
import Gritty.System.Fidelity
import Gritty.System.Linear
import Gritty.System.Lines
import Gritty.System.Peer
import Gritty.System.Session
import Gritty.System.Sizes
import Gritty.System.Step
import Gritty.System.Understood
import Gritty.Table.Basic
import Gritty.Terminal.Basic
import Gritty.Terminal.Chunks
import Gritty.Terminal.Dialogue
import Gritty.Terminal.Escape
import Gritty.Terminal.Heartbeat
import Gritty.Terminal.Keys
import Gritty.Terminal.Rule
import Gritty.Terminal.Said
import Gritty.Terminal.Sound
import Gritty.Terminal.Speech
import Gritty.Terminal.Step
import Gritty.Terminal.Typing
import Gritty.Text.Columns
import Gritty.Text.Decimal
import Gritty.Text.Lines
