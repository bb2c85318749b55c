import RespClient.Client.Batch
import RespClient.Client.Scan
import RespClient.Network.Journal
import RespClient.Network.Offline
import RespClient.Network.Script
import RespClient.Wire.Decode
import RespClient.Proofs.Text.Cut
import RespClient.Proofs.Text.Decimal
import RespClient.Proofs.Text.Utf8
import RespClient.Proofs.Wire.Codec
import RespClient.Proofs.Wire.Grammar
import RespClient.Proofs.Wire.Numeral
import RespClient.Proofs.Wire.Incremental
import RespClient.Proofs.Wire.Turns
import RespClient.Proofs.Wire.Machine
import RespClient.Proofs.Wire.OpenArrays
import RespClient.Proofs.Wire.Request
import RespClient.Proofs.Wire.Framing
import RespClient.Network.Recorder
import RespClient.Proofs.Network.Rounds
import RespClient.Proofs.Client.Plan
import RespClient.Proofs.Client.InStep
import RespClient.Network.Answering
import RespClient.Proofs.Client.Retries
import RespClient.Proofs.Client.Opening
import RespClient.Proofs.Client.Greeting
import RespClient.Proofs.Network.Serving
import RespClient.Proofs.Client.Batch
import RespClient.Proofs.FieldMap
import RespClient.Proofs.Content
import RespClient.Proofs.Client.Pages
import RespClient.Proofs.Client.Attempts
import RespClient.Proofs.Client.Unsendable
import RespClient.Proofs.Client.Alike
import RespClient.Proofs.Client.Lengths
import RespClient.Proofs.LastEntry
import RespClient.Proofs.FieldMap.Effect
import RespClient.Proofs.Text.Lossy
import RespClient.Proofs.Info
import RespClient.Proofs.Keyspace
import RespClient.Proofs.Portion
import RespClient.Proofs.Client.Legs
import RespClient.Proofs.Client.Refusals
import RespClient.Proofs.Wire.NormalForm
import RespClient.Proofs.Keyspace.Section
import RespClient.Proofs.Client.Logged
import RespClient.Proofs.Client.Unreadable
import RespClient.Proofs.Client.Exhaustion
