/-
Finding the sent packet of a message in the logs of an EVM receipt
(`pillar-layerzero`, `packet.rs`; `pillar-runtime`,
`layerzero_runtime/packet_resolver.rs`, `provider_health/evm_helpers.rs`).

Any contract can write a log that looks like a packet's. Only one contract is
bound to each kind of log, and the scan passes over the logs of all others.
-/
import Pillar.Packet
import Pillar.RelayerOptions
import Pillar.Scan

namespace Pillar.PacketSent

open Bits Hex Text Abi Packet RelayerOptions

/-! ## Logs -/

structure EvmReceiptLog where
  address : String
  topics : List String
  data : String
  transactionHash : String
  blockHash : String
  blockNumber : String
  logIndex : String
  removed : Bool
  deriving Repr, DecidableEq

structure EvmTransactionReceipt where
  transactionHash : String
  blockHash : String
  blockNumber : String
  status : String
  logs : List EvmReceiptLog
  deriving Repr, DecidableEq

/-- Which contract interface's event was decoded. -/
inductive EvmPacketSentKind where
  | endpointV2 (sendLibrary : String)
  | sendUln301
  | ultraLightNodeV2
  deriving Repr, DecidableEq

structure EvmPacketSent where
  packet : LzPacketV1
  options : String
  kind : EvmPacketSentKind
  deriving Repr, DecidableEq

/-- What the resolver calls: the crates, Unicode's lowercase, and the generated
table of legacy chain ids. -/
structure Env extends Crates where
  bs58Encode : List UInt8 → String
  toLowercase : String → String
  layerzeroLegacyChainName : UInt32 → Option String

variable (env : Env)

def legacyUlnV2PacketTopic : String := "0xe9bded5f24a4168e4f3bf44e00298c993b22376aad8c58c7dda9718a54cbea82"
def endpointV2PacketSentTopic : String := "0x1ab700d4ced0c005b164c0f789fd09fcbb0156d4c2041b8a3bfbcd961cd1567f"
def uln301PacketSentTopic : String := "0x3dc6f2ede34d1db05729bbb76e5efd17ec1bc83f98f665e7fba0596dca438b96"

def legacyDestinationAddressSize (dstChainId : UInt32) : Nat :=
  match env.layerzeroLegacyChainName dstChainId with
  | .some chainName => destinationAddressSize chainName
  | .none => 20

def zeroGuid : String := "0x0000000000000000000000000000000000000000000000000000000000000000"

def decodeEvmLegacyPacketV2Payload (payload : List UInt8) : Exec AppCoreError LzPacketV1 :=
  if payload.length < 32 then Exec.err (.internal s!"invalid legacy packet payload length: {payload.length}")
  else do
    let nonce ← Exec.slice payload 0 8 >>= fromBeBytes 8 "invalid legacy packet nonce"
    let srcEid ← Exec.slice payload 8 10 >>= fromBeBytes 2 "invalid legacy packet srcEid"
    let dstEid ← Exec.slice payload 30 32 >>= fromBeBytes 2 "invalid legacy packet dstEid"
    let receiverEnd := 32 + legacyDestinationAddressSize env (.ofNat dstEid)
    if payload.length < receiverEnd then
      Exec.err (.internal s!"invalid legacy packet payload length: {payload.length}")
    else
      let sender ← Exec.slice payload 10 30
      let receiver ← Exec.slice payload 32 receiverEnd
      let message ← Exec.slice payload receiverEnd payload.length
      .ok
        { nonce := .ofNat nonce
          srcEid := .ofNat srcEid
          sender := hexText env.hex sender
          dstEid := .ofNat dstEid
          receiver := hexText env.hex receiver
          guid := zeroGuid
          message := hexText env.hex message }

def decodeEvmPacketSentLog (topics : List String) (data : String) : Exec AppCoreError EvmPacketSent :=
  match topics.head? with
  | .none => Exec.err (.internal "missing event topic")
  | .some topic => do
    let topic0 := env.toLowercase topic
    let data ← decodeHexBytes env.hex data
    if topic0 = legacyUlnV2PacketTopic then
      let encodedPayload ← abiDynamicBytes data 0 1
      let packet ← decodeEvmLegacyPacketV2Payload env encodedPayload
      .ok { packet, options := "0x", kind := .ultraLightNodeV2 }
    else if topic0 = endpointV2PacketSentTopic then
      let encodedPayload ← abiDynamicBytes data 0 3
      let options ← abiDynamicBytes data 1 3
      let sendLibrary ← abiAddress env.hex data 2 3
      let packet ← decodeLzPacketV1 env.hex (hexText env.hex encodedPayload)
      .ok { packet, options := hexText env.hex options, kind := .endpointV2 sendLibrary }
    else if topic0 = uln301PacketSentTopic then
      let encodedPayload ← abiDynamicBytes data 0 4
      let options ← abiDynamicBytes data 1 4
      let packet ← decodeLzPacketV1 env.hex (hexText env.hex encodedPayload)
      .ok { packet, options := hexText env.hex options, kind := .sendUln301 }
    else Exec.err (.internal "Unsupported PacketSent event topic")

/-! ## Bindings -/

/-- A contract's address in the deployment tables: `0x` and forty digits, never
more characters than a hash has nibbles. -/
abbrev Address := { s : String // s.toList.length ≤ 64 }

/-- The one contract for each kind of log; `endpointV2SendLibraryVersions` is a
`HashMap` from the EndpointV2 send libraries to their versions. -/
structure EvmPacketSentBindings where
  endpointV2 : Address
  endpointV2SendLibraryVersions : String → Option String
  sendUln301 : Option Address
  ulnV2 : Option Address

def ulnVersionV2 : String := "V2"
def ulnVersionV301 : String := "V301"
def ulnVersionReadV1002 : String := "ReadV1002"

def normalizeAddress (value : String) : String := toAsciiLowercase value

def boundEvmPacketSentVersion (bindings : EvmPacketSentBindings) (kind : EvmPacketSentKind) (emitter : String) :
    Except String (String × String) :=
  let normalized := normalizeAddress emitter
  match kind with
  | .endpointV2 sendLibrary =>
    if normalized ≠ bindings.endpointV2.val then .error "EndpointV2 PacketSent not emitted by EndpointV2"
    else
      match bindings.endpointV2SendLibraryVersions (normalizeAddress sendLibrary) with
      | .none => .error s!"send library {sendLibrary} is not an EndpointV2 library"
      | .some version => .ok (sendLibrary, version)
  | .sendUln301 =>
    if bindings.sendUln301.map Subtype.val ≠ .some normalized then
      .error "SendUln301 PacketSent not emitted by SendUln301"
    else .ok (emitter, ulnVersionV301)
  | .ultraLightNodeV2 =>
    if bindings.ulnV2.map Subtype.val ≠ .some normalized then .error "ULNv2 Packet not emitted by UltraLightNodeV2"
    else .ok (emitter, ulnVersionV2)

/-! ## Events -/

structure PathwayId where
  srcChainName : String
  dstChainName : String
  extra : Extra

structure LzMessageId where
  pathwayId : PathwayId
  nonce : UInt64
  ulnSendVersion : Json

structure EvmSourceEvidence where
  blockHash : String
  blockNumber : Int
  status : String
  packetLogIndex : Nat
  transactionHash : String
  packetLogAddress : String
  packetLogTopics : List String
  packetLogData : String
  deriving Repr, DecidableEq

structure LzSentEvent where
  lzMessageId : LzMessageId
  message : String
  txHash : String
  sourceEvidence : Option EvmSourceEvidence
  extra : Extra

inductive SourceEventConversion where
  | converted (event : LzSentEvent)
  | notOurs
  | sourceFault (error : AppCoreError)

structure Config where
  chainNameByEid : UInt32 → Option String
  packetSentBindingsByChainName : String → Option EvmPacketSentBindings

variable (config : Config)

def chainNameForEid (eid : UInt32) : Except AppCoreError String :=
  match config.chainNameByEid eid with
  | .some name => .ok name
  | .none => .error (.internal s!"No chain name for endpoint id {eid}")

/-- `str::trim_start_matches("0x")`. -/
def trimHexPrefixes : List Char → List Char
  | '0' :: 'x' :: rest => trimHexPrefixes rest
  | chars => chars

/-- A letter is a capital where its nibble of the hash is eight or more. -/
def checksumChar (hash : List UInt8) (character : Char) (index : Nat) : Exec AppCoreError Char := do
  let byte ← Exec.get hash[index / 2]?
  let nibble := if index % 2 = 0 then byte.toNat / 16 else byte.toNat % 16
  .ok (if nibble ≥ 8 then upperChar character else character)

/-- EIP-55. -/
def evmChecksumAddress (address : String) : Exec AppCoreError String := do
  let lower := (trimHexPrefixes address.toList).map lowerChar
  let hash := env.keccak256 (String.ofList lower).toUTF8.data.toList
  let chars ← lower.zipIdx.mapM fun (character, index) => checksumChar hash.val character index
  .ok ("0x" ++ String.ofList chars)

/-- `strip_hex_prefix`. -/
def stripHexPrefix (value : String) : String :=
  ((stripPrefix "0x" value).or (stripPrefix "0X" value)).getD value

/-- The chains at the two ends: both names are the destination's for a read. -/
inductive Ends where
  | chains (srcChainName dstChainName : String)
  | notOurs
  | fault (error : AppCoreError)

def packetEnds (packet : LzPacketV1) : Ends :=
  if isLzReadEndpointId packet.srcEid then
    match chainNameForEid config packet.dstEid with
    | .ok name => .chains name name
    | .error error => .fault error
  else
    match chainNameForEid config packet.srcEid with
    | .error error => .fault error
    | .ok srcChainName =>
      match config.chainNameByEid packet.dstEid with
      | .none => .notOurs
      | .some dstChainName => .chains srcChainName dstChainName

/-- `map_err(|error| AppCoreError::Internal(format!("PacketSent options: {error}")))`. -/
def orOptionsError {α : Type} : Except String α → Exec AppCoreError α
  | .ok a => .ok a
  | .error error => Exec.err (.internal ("PacketSent options: " ++ error))

/-- What a ULNv2 packet has not: its guid and its options. -/
def guidAndOptions (ulnSendVersion dstChainName : String) (guid options : String) : Exec AppCoreError Extra :=
  if ulnSendVersion = ulnVersionV2 then .ok []
  else do
    let options ← orOptionsError (env.hex.decode (stripHexPrefix options))
    let options ← orOptionsError (decodeEvmRelayerOptions env.hex env.bs58Encode options dstChainName)
    .ok [("guid", .string guid), ("options", options)]

def renderSendLibrary (ulnSendVersion sendLibrary : String) : Exec AppCoreError String :=
  if ulnSendVersion = ulnVersionV301 then .ok (toAsciiLowercase sendLibrary) else evmChecksumAddress env sendLibrary

/-- The event of a packet between two chains of ours. -/
def convertedEvent (srcTxHash sendLibrary ulnSendVersion : String) (packet : LzPacketV1) (options logAddress : String)
    (sourceEvidence : EvmSourceEvidence) (srcChainName dstChainName : String) :
    Exec AppCoreError SourceEventConversion := do
  let extra ← guidAndOptions env ulnSendVersion dstChainName packet.guid options
  let sendLibrary ← renderSendLibrary env ulnSendVersion sendLibrary
  let packetEmitAddress ← evmChecksumAddress env logAddress
  .ok (.converted
    { lzMessageId :=
        { pathwayId :=
            { srcChainName, dstChainName,
              extra := [("srcEid", .ofU32 packet.srcEid), ("dstEid", .ofU32 packet.dstEid),
                ("sender", .string packet.sender), ("receiver", .string packet.receiver)] }
          nonce := packet.nonce
          ulnSendVersion := .string ulnSendVersion }
      message := packet.message
      txHash := srcTxHash
      sourceEvidence := .some sourceEvidence
      extra := extra ++ [("sendLibrary", .string sendLibrary), ("packetEmitAddress", .string packetEmitAddress)] })

/-- A read packet's endpoint ids, flipped. -/
def flipRead (ulnSendVersion : String) (packet : LzPacketV1) : LzPacketV1 :=
  if ulnSendVersion = ulnVersionReadV1002 then { packet with srcEid := packet.dstEid, dstEid := packet.srcEid }
  else packet

def packetSentToLzSentEvent (srcChainName srcTxHash : String) (packetSent : EvmPacketSent) (logAddress : String)
    (sourceEvidence : EvmSourceEvidence) : Exec AppCoreError SourceEventConversion :=
  match config.packetSentBindingsByChainName srcChainName with
  | .none => Exec.err (.internal s!"No PacketSent bindings for chain {srcChainName}")
  | .some bindings =>
    match boundEvmPacketSentVersion bindings packetSent.kind logAddress with
    | .error reason =>
      Exec.err (.internal s!"Untrusted PacketSent from {logAddress} on chain {srcChainName}: {reason}")
    | .ok (sendLibrary, ulnSendVersion) =>
      let packet := flipRead ulnSendVersion packetSent.packet
      match packetEnds config packet with
      | .fault error => .ok (.sourceFault error)
      | .notOurs => .ok .notOurs
      | .chains srcChainName dstChainName =>
        convertedEvent env srcTxHash sendLibrary ulnSendVersion packet packetSent.options logAddress sourceEvidence
          srcChainName dstChainName

/-! ## Matching -/

def addressEncodedByChain (chainName raw : String) : Option String :=
  let digits := toAsciiLowercase ((stripPrefix "0x" raw).getD raw)
  if digits.utf8ByteSize > 64 || !digits.toList.all (fun c => (hexDigit? c).isSome) then .none
  else
    let padded := padLeft 64 digits
    if chainName = "solana" then
      match env.hex.decode digits with
      | .ok bytes => .some (env.bs58Encode bytes)
      | .error _ => .none
    else if chainName ∈ wideChains then .some ("0x" ++ padded)
    else if (padded.toList.take 24).all (· = '0') then .some ("0x" ++ String.ofList (padded.toList.drop 24))
    else .none

def pathwayIdentityMatches (expected actual : LzMessageId) : Bool :=
  let eid (key : String) : Bool :=
    let requested := (expected.pathwayId.extra.get key).bind Json.asU64
    requested.isSome && requested = (actual.pathwayId.extra.get key).bind Json.asU64
  let address (key chainName : String) : Bool :=
    let requested := (expected.pathwayId.extra.get key).bind Json.asStr
    let resolved := ((actual.pathwayId.extra.get key).bind Json.asStr).bind (addressEncodedByChain env chainName)
    requested.isSome && requested = resolved
  eid "srcEid" && eid "dstEid" && address "sender" actual.pathwayId.srcChainName &&
    address "receiver" actual.pathwayId.dstChainName

def lzMessageIdMatches (expected actual : LzMessageId) : Bool :=
  expected.nonce = actual.nonce && expected.pathwayId.srcChainName = actual.pathwayId.srcChainName &&
    expected.pathwayId.dstChainName = actual.pathwayId.dstChainName &&
    expected.ulnSendVersion.asStr = actual.ulnSendVersion.asStr && pathwayIdentityMatches env expected actual

/-! ## The scan -/

/-- The evidence of a log in its receipt. -/
def evidenceOf (receipt : EvmTransactionReceipt) (blockNumber : Int) (log : EvmReceiptLog) (packetLogIndex : Nat) :
    EvmSourceEvidence where
  blockHash := receipt.blockHash
  blockNumber := blockNumber
  status := receipt.status
  packetLogIndex := packetLogIndex
  transactionHash := receipt.transactionHash
  packetLogAddress := log.address
  packetLogTopics := log.topics
  packetLogData := log.data

/-- One turn of the loop: which logs are passed over, and why. -/
def judgeLog (lzMessageId : LzMessageId) (srcTxHash : String) (receipt : EvmTransactionReceipt) (blockNumber : Int)
    (log : EvmReceiptLog) : Exec AppCoreError (Verdict AppCoreError LzSentEvent) :=
  match decodeEvmPacketSentLog env log.topics log.data with
  | .error (.err _) => .ok .skip
  | .error halt => .error halt
  | .ok packetSent =>
    match parse 64 log.logIndex with
    | .error _ => .ok .skip
    | .ok packetLogIndex =>
      match packetSentToLzSentEvent env config lzMessageId.pathwayId.srcChainName srcTxHash packetSent log.address
          (evidenceOf receipt blockNumber log packetLogIndex) with
      | .error (.err _) => .ok .skip
      | .error halt => .error halt
      | .ok .notOurs => .ok .skip
      | .ok (.sourceFault error) => .ok (.fault error)
      | .ok (.converted event) =>
        if lzMessageIdMatches env lzMessageId event.lzMessageId then .ok (.hit event) else .ok .skip

def packetDoesNotMatch (srcTxHash : String) : AppCoreError :=
  .badRequest s!"No trusted PacketSent event in {srcTxHash} does not match the requested pathway identity"

/-- The loop over a receipt's logs. -/
def logLoop (lzMessageId : LzMessageId) (srcTxHash : String) (receipt : EvmTransactionReceipt) (blockNumber : Int)
    (logs : List EvmReceiptLog) : Exec AppCoreError LzSentEvent :=
  scan (judgeLog env config lzMessageId srcTxHash receipt blockNumber) (packetDoesNotMatch srcTxHash) .none logs

/-- `get_lz_sent_event`, from an EVM receipt on. -/
def sentEventOfReceipt (lzMessageId : LzMessageId) (srcTxHash : String) (receipt : EvmTransactionReceipt) :
    Exec AppCoreError LzSentEvent :=
  match parseSigned 64 receipt.blockNumber with
  | .error error => Exec.err (.internal error.display)
  | .ok blockNumber => logLoop env config lzMessageId srcTxHash receipt blockNumber receipt.logs

end Pillar.PacketSent
