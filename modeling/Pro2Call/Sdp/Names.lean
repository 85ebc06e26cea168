import Pro2Call.Data.Text

namespace Pro2Call.Sdp

open Pro2Call.Data

abbrev Bytes := List UInt8

def sdpLc (c : UInt8) : UInt8 := c ||| 0x20

def sdpIeq2 (a b : Bytes) : Bool := a.map sdpLc = b.map sdpLc

def sdpIsWs (c : UInt8) : Bool := c = 0x20 || c = 0x09

inductive SdpAttrId where
  | other | candidate | crypto | extmap | fingerprint | fmtp | group | iceLite | iceOptions
  | icePwd | iceUfrag | inactive | maxptime | mid | msid | ptime | recvonly | rtcp | rtcpFb
  | rtcpMux | rtpmap | sendonly | sendrecv | setup | ssrc | ssrcGroup
  deriving DecidableEq, Repr

inductive SdpMtype where
  | other | audio | video | text | application | message | image
  deriving DecidableEq, Repr

inductive SdpProto where
  | other | rtpAvp | rtpAvpf | rtpSavp | rtpSavpf | udpTlsRtpSavp | udpTlsRtpSavpf
  | udpDtlsSctp | udptl | udp | tcp
  deriving DecidableEq, Repr

inductive SdpDir where
  | sendrecv | sendonly | recvonly | inactive
  deriving DecidableEq, Repr

def kAttr : SdpAttrId → String
  | .other => ""
  | .candidate => "candidate"
  | .crypto => "crypto"
  | .extmap => "extmap"
  | .fingerprint => "fingerprint"
  | .fmtp => "fmtp"
  | .group => "group"
  | .iceLite => "ice-lite"
  | .iceOptions => "ice-options"
  | .icePwd => "ice-pwd"
  | .iceUfrag => "ice-ufrag"
  | .inactive => "inactive"
  | .maxptime => "maxptime"
  | .mid => "mid"
  | .msid => "msid"
  | .ptime => "ptime"
  | .recvonly => "recvonly"
  | .rtcp => "rtcp"
  | .rtcpFb => "rtcp-fb"
  | .rtcpMux => "rtcp-mux"
  | .rtpmap => "rtpmap"
  | .sendonly => "sendonly"
  | .sendrecv => "sendrecv"
  | .setup => "setup"
  | .ssrc => "ssrc"
  | .ssrcGroup => "ssrc-group"

def sdpAttrName (id : SdpAttrId) : Bytes := ascii (kAttr id)

def attrIds : List SdpAttrId :=
  [.other, .candidate, .crypto, .extmap, .fingerprint, .fmtp, .group, .iceLite, .iceOptions,
   .icePwd, .iceUfrag, .inactive, .maxptime, .mid, .msid, .ptime, .recvonly, .rtcp, .rtcpFb,
   .rtcpMux, .rtpmap, .sendonly, .sendrecv, .setup, .ssrc, .ssrcGroup]

def kAttrBucket (c : UInt8) : Option (SdpAttrId × SdpAttrId) :=
  match Char.ofNat c.toNat with
  | 'c' => some (.candidate, .crypto)
  | 'e' => some (.extmap, .extmap)
  | 'f' => some (.fingerprint, .fmtp)
  | 'g' => some (.group, .group)
  | 'i' => some (.iceLite, .inactive)
  | 'm' => some (.maxptime, .msid)
  | 'p' => some (.ptime, .ptime)
  | 'r' => some (.recvonly, .rtpmap)
  | 's' => some (.sendonly, .ssrcGroup)
  | _ => none

def attrBucket (c : UInt8) : List SdpAttrId :=
  match kAttrBucket c with
  | none => []
  | some (lo, hi) => (attrIds.drop lo.ctorIdx).take (hi.ctorIdx + 1 - lo.ctorIdx)

def sdpAttrFrom (name : Bytes) : SdpAttrId :=
  let c := sdpLc (name.headD 0)
  if name.length < 3 ∨ 11 < name.length then .other
  else if c < 0x61 ∨ 0x7A < c then .other
  else
    ((attrBucket c).find? fun id =>
      (sdpAttrName id).length = name.length && sdpIeq2 name (sdpAttrName id)).getD .other

def kMtype : SdpMtype → String
  | .other => ""
  | .audio => "audio"
  | .video => "video"
  | .text => "text"
  | .application => "application"
  | .message => "message"
  | .image => "image"

def sdpMtypeName (t : SdpMtype) : Bytes := ascii (kMtype t)

def mtypeIds : List SdpMtype := [.audio, .video, .text, .application, .message, .image]

def sdpMtypeFrom (name : Bytes) : SdpMtype :=
  (mtypeIds.find? fun id => sdpMtypeName id = name).getD .other

def kProto : SdpProto → String
  | .other => ""
  | .rtpAvp => "RTP/AVP"
  | .rtpAvpf => "RTP/AVPF"
  | .rtpSavp => "RTP/SAVP"
  | .rtpSavpf => "RTP/SAVPF"
  | .udpTlsRtpSavp => "UDP/TLS/RTP/SAVP"
  | .udpTlsRtpSavpf => "UDP/TLS/RTP/SAVPF"
  | .udpDtlsSctp => "UDP/DTLS/SCTP"
  | .udptl => "udptl"
  | .udp => "udp"
  | .tcp => "TCP"

def sdpProtoName (p : SdpProto) : Bytes := ascii (kProto p)

def protoIds : List SdpProto :=
  [.rtpAvp, .rtpAvpf, .rtpSavp, .rtpSavpf, .udpTlsRtpSavp, .udpTlsRtpSavpf, .udpDtlsSctp,
   .udptl, .udp, .tcp]

def sdpProtoFrom (name : Bytes) : SdpProto :=
  (protoIds.find? fun id => sdpProtoName id = name).getD .other

end Pro2Call.Sdp
