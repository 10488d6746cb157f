import PacketLayer.Bytes

/-!
# Message types

The first payload octet of a packet names its message type. The packet layer
does not interpret messages; it only labels them in the journal.
-/

namespace PacketLayer

/-- The message types that have a name. -/
inductive MessageType where
  | disconnect
  | ignore
  | unimplemented
  | debug
  | serviceRequest
  | serviceAccept
  | kexInit
  | newKeys
  | kexdhInit
  | kexdhReply
  | kexGexRequest
  | userauthRequest
  | userauthFailure
  | userauthSuccess
  | userauthBanner
  | userauthPkOk
  | globalRequest
  | requestSuccess
  | requestFailure
  | channelOpen
  | channelOpenConfirmation
  | channelOpenFailure
  | channelWindowAdjust
  | channelData
  | channelExtendedData
  | channelEof
  | channelClose
  | channelRequest
  | channelSuccess
  | channelFailure
  deriving DecidableEq, Repr

namespace MessageType

/-- All message types with a name, by ascending code. -/
def all : List MessageType :=
  [disconnect, ignore, unimplemented, debug, serviceRequest, serviceAccept,
    kexInit, newKeys, kexdhInit, kexdhReply, kexGexRequest,
    userauthRequest, userauthFailure, userauthSuccess, userauthBanner, userauthPkOk,
    globalRequest, requestSuccess, requestFailure,
    channelOpen, channelOpenConfirmation, channelOpenFailure, channelWindowAdjust,
    channelData, channelExtendedData, channelEof, channelClose,
    channelRequest, channelSuccess, channelFailure]

/-- The octet that stands for a message type on the wire. -/
def code : MessageType → UInt8
  | disconnect => 1
  | ignore => 2
  | unimplemented => 3
  | debug => 4
  | serviceRequest => 5
  | serviceAccept => 6
  | kexInit => 20
  | newKeys => 21
  | kexdhInit => 30
  | kexdhReply => 31
  | kexGexRequest => 34
  | userauthRequest => 50
  | userauthFailure => 51
  | userauthSuccess => 52
  | userauthBanner => 53
  | userauthPkOk => 60
  | globalRequest => 80
  | requestSuccess => 81
  | requestFailure => 82
  | channelOpen => 90
  | channelOpenConfirmation => 91
  | channelOpenFailure => 92
  | channelWindowAdjust => 93
  | channelData => 94
  | channelExtendedData => 95
  | channelEof => 96
  | channelClose => 97
  | channelRequest => 98
  | channelSuccess => 99
  | channelFailure => 100

/-- The protocol's name of a message type. -/
def name : MessageType → String
  | disconnect => "SSH_MSG_DISCONNECT"
  | ignore => "SSH_MSG_IGNORE"
  | unimplemented => "SSH_MSG_UNIMPLEMENTED"
  | debug => "SSH_MSG_DEBUG"
  | serviceRequest => "SSH_MSG_SERVICE_REQUEST"
  | serviceAccept => "SSH_MSG_SERVICE_ACCEPT"
  | kexInit => "SSH_MSG_KEXINIT"
  | newKeys => "SSH_MSG_NEWKEYS"
  | kexdhInit => "SSH_MSG_KEXDH_INIT"
  | kexdhReply => "SSH_MSG_KEXDH_REPLY"
  | kexGexRequest => "SSH_MSG_KEX_DH_GEX_REQUEST"
  | userauthRequest => "SSH_MSG_USERAUTH_REQUEST"
  | userauthFailure => "SSH_MSG_USERAUTH_FAILURE"
  | userauthSuccess => "SSH_MSG_USERAUTH_SUCCESS"
  | userauthBanner => "SSH_MSG_USERAUTH_BANNER"
  | userauthPkOk => "SSH_MSG_USERAUTH_PK_OK"
  | globalRequest => "SSH_MSG_GLOBAL_REQUEST"
  | requestSuccess => "SSH_MSG_REQUEST_SUCCESS"
  | requestFailure => "SSH_MSG_REQUEST_FAILURE"
  | channelOpen => "SSH_MSG_CHANNEL_OPEN"
  | channelOpenConfirmation => "SSH_MSG_CHANNEL_OPEN_CONFIRMATION"
  | channelOpenFailure => "SSH_MSG_CHANNEL_OPEN_FAILURE"
  | channelWindowAdjust => "SSH_MSG_CHANNEL_WINDOW_ADJUST"
  | channelData => "SSH_MSG_CHANNEL_DATA"
  | channelExtendedData => "SSH_MSG_CHANNEL_EXTENDED_DATA"
  | channelEof => "SSH_MSG_CHANNEL_EOF"
  | channelClose => "SSH_MSG_CHANNEL_CLOSE"
  | channelRequest => "SSH_MSG_CHANNEL_REQUEST"
  | channelSuccess => "SSH_MSG_CHANNEL_SUCCESS"
  | channelFailure => "SSH_MSG_CHANNEL_FAILURE"

/-- The message type that an octet stands for, if it has a name. -/
def ofCode? (byte : UInt8) : Option MessageType :=
  all.find? fun type => type.code == byte

/-- The name followed by the code in parentheses. -/
def display (type : MessageType) : String :=
  s!"{type.name}({type.code})"

/-- Labels an octet by its message type, or by its number when it has no name. -/
def describe (byte : UInt8) : String :=
  match ofCode? byte with
  | some type => type.name
  | none => s!"${byte}"

/-- Labels a payload by its first octet. -/
def describePayload : Bytes → String
  | [] => "<empty>"
  | byte :: _ => describe byte

end MessageType

end PacketLayer
