import Snmp.Agent.Basic
import Snmp.Agent.Config
import Snmp.Agent.Negotiation
import Snmp.Agent.Reply
import Snmp.Agent.Respond
import Snmp.Ber.Defect
import Snmp.Ber.Integer
import Snmp.Ber.Length
import Snmp.Ber.Reader
import Snmp.Ber.Tag
import Snmp.Ber.Writer
import Snmp.Binding.Basic
import Snmp.CommandLine.EngineSpec
import Snmp.CommandLine.Flag
import Snmp.CommandLine.Options
import Snmp.CommandLine.Service
import Snmp.CommandLine.UserSpec
import Snmp.Crypto.Aes
import Snmp.Crypto.BlockHash
import Snmp.Crypto.Des
import Snmp.Crypto.Md5
import Snmp.Crypto.Sha1
import Snmp.Crypto.Sha256
import Snmp.Crypto.Sha512
import Snmp.Decimal.Notation
import Snmp.Decimal.Shortest
import Snmp.Error
import Snmp.Main
import Snmp.Message.Basic
import Snmp.Message.Encoding
import Snmp.Message.Security
import Snmp.Mib.Answer
import Snmp.Mib.Callback
import Snmp.Mib.Registry
import Snmp.Mib.Scope
import Snmp.Mib.SystemGroup
import Snmp.Mib.Variable
import Snmp.Net.Endpoint
import Snmp.Octets
import Snmp.Oid.Basic
import Snmp.Oid.Content
import Snmp.Oid.Order
import Snmp.Oid.Parse
import Snmp.Pdu.Basic
import Snmp.Pdu.Encoding
import Snmp.Pdu.Status
import Snmp.Proofs.AgentRuns
import Snmp.Proofs.AlikeDelivery
import Snmp.Proofs.Authentication
import Snmp.Proofs.BindingLists
import Snmp.Proofs.BindingTurns
import Snmp.Proofs.BulkLoop
import Snmp.Proofs.BulkRequest
import Snmp.Proofs.BulkWalk
import Snmp.Proofs.CallRecord
import Snmp.Proofs.CodePlace
import Snmp.Proofs.CommunityReplies
import Snmp.Proofs.ConsistentConfigs
import Snmp.Proofs.Consumption
import Snmp.Proofs.DatagramLayout
import Snmp.Proofs.DiscoveryCount
import Snmp.Proofs.DottedText
import Snmp.Proofs.Elements
import Snmp.Proofs.EncodeFailures
import Snmp.Proofs.EngineText
import Snmp.Proofs.ExchangedCallbacks
import Snmp.Proofs.FaithfulScopes
import Snmp.Proofs.FirstFailure
import Snmp.Proofs.ForetoldAnswers
import Snmp.Proofs.ForwardEncoding
import Snmp.Proofs.GroupScopes
import Snmp.Proofs.IntegerContent
import Snmp.Proofs.IntegerWords
import Snmp.Proofs.Isolation
import Snmp.Proofs.IvSeed
import Snmp.Proofs.KeyLaws
import Snmp.Proofs.KeyStretching
import Snmp.Proofs.LengthOctets
import Snmp.Proofs.LengthWords
import Snmp.Proofs.MessageRoundTrip
import Snmp.Proofs.MessageWire
import Snmp.Proofs.NextWalk
import Snmp.Proofs.Numbers
import Snmp.Proofs.OidContent
import Snmp.Proofs.OnePass
import Snmp.Proofs.ParametersRoundTrip
import Snmp.Proofs.PassphraseExpansion
import Snmp.Proofs.PduRoundTrip
import Snmp.Proofs.PermissionGate
import Snmp.Proofs.PlacelessDecoding
import Snmp.Proofs.PreparedUsers
import Snmp.Proofs.ReadValues
import Snmp.Proofs.ReaderConfinement
import Snmp.Proofs.ReadingSessions
import Snmp.Proofs.Reencoding
import Snmp.Proofs.RegisteredNames
import Snmp.Proofs.RegistryOrder
import Snmp.Proofs.RegistryWalk
import Snmp.Proofs.ReplyFitting
import Snmp.Proofs.ReplyFrame
import Snmp.Proofs.ReplyMirror
import Snmp.Proofs.ReplySize
import Snmp.Proofs.Results
import Snmp.Proofs.SaltedReplies
import Snmp.Proofs.ServerConservation
import Snmp.Proofs.ServerSteps
import Snmp.Proofs.ServingPlan
import Snmp.Proofs.SetEffects
import Snmp.Proofs.ShorterMessages
import Snmp.Proofs.StandardCiphers
import Snmp.Proofs.SteadyServing
import Snmp.Proofs.Subidentifiers
import Snmp.Proofs.TrapSilence
import Snmp.Proofs.TurnServing
import Snmp.Proofs.Unlocking
import Snmp.Proofs.UserText
import Snmp.Proofs.Utf8Text
import Snmp.Proofs.WritableTexts
import Snmp.Server.Basic
import Snmp.Server.Run
import Snmp.Simulation.Script
import Snmp.Simulation.World
import Snmp.Text.Fields
import Snmp.Text.Hex
import Snmp.Text.Hidden
import Snmp.Text.Quoted
import Snmp.Text.Utf8
import Snmp.Usm.Defect
import Snmp.Usm.EngineId
import Snmp.Usm.Key
import Snmp.Usm.Parameters
import Snmp.Usm.Privacy
import Snmp.Usm.Protocol
import Snmp.Usm.Suite
import Snmp.Usm.User
import Snmp.Value.Basic
import Snmp.Value.Encoding
import Snmp.Value.Text
