import Pillar.Halt
import Pillar.Slots
import Pillar.Strategy
import Pillar.StrategyFacts
import Pillar.Core
import Pillar.Quorum
import Pillar.QuorumFacts
import Pillar.FairBudget
import Pillar.FairBudgetInv
import Pillar.FairBudgetMoves
import Pillar.FairBudgetFacts
import Pillar.FairBudgetTurns
import Pillar.JsonBudget
import Pillar.Bits
import Pillar.JsonBudgetFacts
import Pillar.JsonText
import Pillar.CantonPayload
import Pillar.Double
import Pillar.CantonSequencer
import Pillar.CantonSequencerFacts
import Pillar.CantonToken
import Pillar.CantonTokenFacts
import Pillar.TonCore
import Pillar.Dict
import Pillar.DictFacts
import Pillar.ClDeclare
import Pillar.ClDeclareFacts
import Pillar.Boc
import Pillar.Postorder
import Pillar.BocFacts
import Pillar.Hex
import Pillar.Abi
import Pillar.AbiFacts
import Pillar.Cursor
import Pillar.Packet
import Pillar.PacketFacts
import Pillar.ReadCommand
import Pillar.ReadCommandFacts
import Pillar.ReadCalls
import Pillar.RelayerOptions
import Pillar.Scan
import Pillar.PacketSent
import Pillar.PacketSentFacts
import Pillar.Receipt
import Pillar.ReceiptFacts
import Pillar.BindingFacts
import Pillar.IotaEvents
import Pillar.Redact
import Pillar.IndexMap
import Pillar.ProviderPool
import Pillar.Dispatch
import Pillar.DispatchFacts
import Pillar.ProvidersV2
import Pillar.ProvidersV2Facts
import Pillar.ReadMarkers
import Pillar.ReadMarkersFacts
import Pillar.Expiration
import Pillar.Snapshot
import Pillar.HealthCache
import Pillar.HealthCacheFacts
import Pillar.HealthRounds
import Pillar.Audit
import Pillar.AuditFacts
import Pillar.AuditLog
import Pillar.AuditLogFacts
import Pillar.Transcript
import Pillar.Workflow
import Pillar.WorkflowFacts
import Pillar.EvmPayload
import Pillar.EvmPayloadFacts
import Pillar.Leb128
import Pillar.SuiBcs
import Pillar.SuiBcsFacts
import Pillar.SuiTransactionKind
import Pillar.LegacyPacket
import Pillar.AbiCalldata
import Pillar.HexCells
import Pillar.TonOptions
import Pillar.LongestChain
import Pillar.BocDepth
import Pillar.Utf8
import Pillar.PayloadHash
import Pillar.Base32
import Pillar.Crc
import Pillar.Strkey
import Pillar.Base58
import Pillar.NativeAddress
import Pillar.StellarAddress
import Pillar.Xdr
import Pillar.StellarCall
import Pillar.Reads
import Pillar.XdrReader
import Pillar.ClassReader
import Pillar.StructuralCost
import Pillar.IotaPages
import Pillar.Tracked
import Pillar.CairoBytes
import Pillar.Totals
import Pillar.RelayerOptionsFacts
import Pillar.JsonMap
import Pillar.Rose
import Pillar.TonTrace
import Pillar.JsonGrammar
import Pillar.ParseBudget
import Pillar.Projection
import Pillar.ProjectionFacts
import Pillar.ZeroSignal
import Pillar.CantonAuth
import Pillar.SolanaVote
import Pillar.Decimal
import Pillar.JsBigInt
import Pillar.Gregorian
import Pillar.SuiTimestamp
import Pillar.Base64
import Pillar.StellarSimulation
import Pillar.Hydration
import Pillar.UrlPath
import Pillar.PathSegment
import Pillar.TonStorage
import Pillar.KmsSignature
import Pillar.InitiaKey
import Pillar.InitiaTimestamp
import Pillar.Lossy
import Pillar.Express
import Pillar.ReadPreflight
import Pillar.CantonUln
import Pillar.JsNumber
import Pillar.CantonUlnFacts
import Pillar.Readiness
import Pillar.ReadinessFacts
import Pillar.PayloadVote
import Pillar.MovePayload
import Pillar.MovePayloadFacts
import Pillar.FixedFields
import Pillar.SolanaPayload
import Pillar.SolanaPayloadFacts
import Pillar.UlnRun
import Pillar.StarknetPayload
import Pillar.StarknetPayloadFacts
import Pillar.StellarPayload
import Pillar.StellarPayloadFacts
import Pillar.EvmPayloadRun
import Pillar.SuiPayload
import Pillar.SuiPayloadFacts
import Pillar.TonAttestation
import Pillar.TonAttestationFacts
import Pillar.TonDvnVerify
import Pillar.TonDvnVerifyFacts
import Pillar.TonPayload
import Pillar.TonPayloadFacts
import Pillar.PayloadDispatch
import Pillar.SerdeText
import Pillar.SourceEvents
import Pillar.StarknetSource
import Pillar.StarknetSourceFacts
