import Pro2Call.Data.Text

namespace Pro2Call.Sip

open Pro2Call.Data

abbrev Bytes := List UInt8

def sipLc (c : UInt8) : UInt8 := c ||| 0x20

def sipIeq2 (a b : Bytes) : Bool := a.map sipLc = b.map sipLc

def sipIsWs (c : UInt8) : Bool := c = 0x20 || c = 0x09

inductive SipHdr where
  | other | accept | acceptEncoding | acceptLanguage | alertInfo | allow | allowEvents
  | authenticationInfo | authorization | callId | callInfo | contact | contentDisposition
  | contentEncoding | contentLanguage | contentLength | contentType | cseq | date | errorInfo
  | event | expires | from_ | inReplyTo | maxForwards | mimeVersion | minExpires | minSe
  | organization | pAssertedIdentity | pPreferredIdentity | priority | privacy
  | proxyAuthenticate | proxyAuthorization | proxyRequire | rack | recordRoute | referTo
  | referredBy | replyTo | require | retryAfter | route | rseq | server | sessionExpires
  | subject | subscriptionState | supported | timestamp | to | unsupported | userAgent | via
  | warning | wwwAuthenticate
  deriving DecidableEq, Repr

inductive SipMethod where
  | unknown | invite | ack | bye | cancel | options | register | prack | subscribe | notify
  | publish | info | refer | message | update
  deriving DecidableEq, Repr

def kHdr : SipHdr → String
  | .other => ""
  | .accept => "Accept"
  | .acceptEncoding => "Accept-Encoding"
  | .acceptLanguage => "Accept-Language"
  | .alertInfo => "Alert-Info"
  | .allow => "Allow"
  | .allowEvents => "Allow-Events"
  | .authenticationInfo => "Authentication-Info"
  | .authorization => "Authorization"
  | .callId => "Call-ID"
  | .callInfo => "Call-Info"
  | .contact => "Contact"
  | .contentDisposition => "Content-Disposition"
  | .contentEncoding => "Content-Encoding"
  | .contentLanguage => "Content-Language"
  | .contentLength => "Content-Length"
  | .contentType => "Content-Type"
  | .cseq => "CSeq"
  | .date => "Date"
  | .errorInfo => "Error-Info"
  | .event => "Event"
  | .expires => "Expires"
  | .from_ => "From"
  | .inReplyTo => "In-Reply-To"
  | .maxForwards => "Max-Forwards"
  | .mimeVersion => "MIME-Version"
  | .minExpires => "Min-Expires"
  | .minSe => "Min-SE"
  | .organization => "Organization"
  | .pAssertedIdentity => "P-Asserted-Identity"
  | .pPreferredIdentity => "P-Preferred-Identity"
  | .priority => "Priority"
  | .privacy => "Privacy"
  | .proxyAuthenticate => "Proxy-Authenticate"
  | .proxyAuthorization => "Proxy-Authorization"
  | .proxyRequire => "Proxy-Require"
  | .rack => "RAck"
  | .recordRoute => "Record-Route"
  | .referTo => "Refer-To"
  | .referredBy => "Referred-By"
  | .replyTo => "Reply-To"
  | .require => "Require"
  | .retryAfter => "Retry-After"
  | .route => "Route"
  | .rseq => "RSeq"
  | .server => "Server"
  | .sessionExpires => "Session-Expires"
  | .subject => "Subject"
  | .subscriptionState => "Subscription-State"
  | .supported => "Supported"
  | .timestamp => "Timestamp"
  | .to => "To"
  | .unsupported => "Unsupported"
  | .userAgent => "User-Agent"
  | .via => "Via"
  | .warning => "Warning"
  | .wwwAuthenticate => "WWW-Authenticate"

def sipHdrName (id : SipHdr) : Bytes := ascii (kHdr id)

def hdrIds : List SipHdr :=
  [.other, .accept, .acceptEncoding, .acceptLanguage, .alertInfo, .allow, .allowEvents,
   .authenticationInfo, .authorization, .callId, .callInfo, .contact, .contentDisposition,
   .contentEncoding, .contentLanguage, .contentLength, .contentType, .cseq, .date, .errorInfo,
   .event, .expires, .from_, .inReplyTo, .maxForwards, .mimeVersion, .minExpires, .minSe,
   .organization, .pAssertedIdentity, .pPreferredIdentity, .priority, .privacy,
   .proxyAuthenticate, .proxyAuthorization, .proxyRequire, .rack, .recordRoute, .referTo,
   .referredBy, .replyTo, .require, .retryAfter, .route, .rseq, .server, .sessionExpires,
   .subject, .subscriptionState, .supported, .timestamp, .to, .unsupported, .userAgent, .via,
   .warning, .wwwAuthenticate]

def kHdrBucket (c : UInt8) : Option (SipHdr × SipHdr) :=
  match Char.ofNat c.toNat with
  | 'a' => some (.accept, .authorization)
  | 'c' => some (.callId, .cseq)
  | 'd' => some (.date, .date)
  | 'e' => some (.errorInfo, .expires)
  | 'f' => some (.from_, .from_)
  | 'i' => some (.inReplyTo, .inReplyTo)
  | 'm' => some (.maxForwards, .minSe)
  | 'o' => some (.organization, .organization)
  | 'p' => some (.pAssertedIdentity, .proxyRequire)
  | 'r' => some (.rack, .rseq)
  | 's' => some (.server, .supported)
  | 't' => some (.timestamp, .to)
  | 'u' => some (.unsupported, .userAgent)
  | 'v' => some (.via, .via)
  | 'w' => some (.warning, .wwwAuthenticate)
  | _ => none

def kHdrCompact (c : UInt8) : SipHdr :=
  match Char.ofNat c.toNat with
  | 'b' => .referredBy
  | 'c' => .contentType
  | 'e' => .contentEncoding
  | 'f' => .from_
  | 'i' => .callId
  | 'k' => .supported
  | 'l' => .contentLength
  | 'm' => .contact
  | 'o' => .event
  | 'r' => .referTo
  | 's' => .subject
  | 't' => .to
  | 'u' => .allowEvents
  | 'v' => .via
  | 'x' => .sessionExpires
  | _ => .other

def kMethod : SipMethod → String
  | .unknown => ""
  | .invite => "INVITE"
  | .ack => "ACK"
  | .bye => "BYE"
  | .cancel => "CANCEL"
  | .options => "OPTIONS"
  | .register => "REGISTER"
  | .prack => "PRACK"
  | .subscribe => "SUBSCRIBE"
  | .notify => "NOTIFY"
  | .publish => "PUBLISH"
  | .info => "INFO"
  | .refer => "REFER"
  | .message => "MESSAGE"
  | .update => "UPDATE"

def sipMethodName (m : SipMethod) : Bytes := ascii (kMethod m)

def sipMethodFrom (name : Bytes) : SipMethod :=
  match name.length with
  | 3 =>
    if name = ascii "ACK" then .ack
    else if name = ascii "BYE" then .bye
    else .unknown
  | 4 => if name = ascii "INFO" then .info else .unknown
  | 5 =>
    if name = ascii "PRACK" then .prack
    else if name = ascii "REFER" then .refer
    else .unknown
  | 6 =>
    if name = ascii "INVITE" then .invite
    else if name = ascii "CANCEL" then .cancel
    else if name = ascii "NOTIFY" then .notify
    else if name = ascii "UPDATE" then .update
    else .unknown
  | 7 =>
    if name = ascii "OPTIONS" then .options
    else if name = ascii "MESSAGE" then .message
    else if name = ascii "PUBLISH" then .publish
    else .unknown
  | 8 => if name = ascii "REGISTER" then .register else .unknown
  | 9 => if name = ascii "SUBSCRIBE" then .subscribe else .unknown
  | _ => .unknown

def isLetter (c : UInt8) : Bool := 0x61 ≤ c && c ≤ 0x7A

def hdrBucket (c : UInt8) : List SipHdr :=
  match kHdrBucket c with
  | none => []
  | some (lo, hi) => (hdrIds.drop lo.ctorIdx).take (hi.ctorIdx + 1 - lo.ctorIdx)

def sipHdrFrom (name : Bytes) : SipHdr :=
  let c := sipLc (name.headD 0)
  if name.length = 1 then
    if isLetter c then kHdrCompact c else .other
  else if name.length < 2 ∨ 20 < name.length then .other
  else if !isLetter c then .other
  else
    ((hdrBucket c).find? fun id =>
      (sipHdrName id).length = name.length && sipIeq2 name (sipHdrName id)).getD .other

def statusPhrases : List (Nat × String) :=
  [(100, "Trying"), (180, "Ringing"), (181, "Call Is Being Forwarded"), (182, "Queued"),
    (183, "Session Progress"),
    (199, "Early Dialog Terminated"),
    (200, "OK"),
    (202, "Accepted"),
    (300, "Multiple Choices"),
    (301, "Moved Permanently"),
    (302, "Moved Temporarily"),
    (305, "Use Proxy"),
    (380, "Alternative Service"),
    (400, "Bad Request"),
    (401, "Unauthorized"),
    (402, "Payment Required"),
    (403, "Forbidden"),
    (404, "Not Found"),
    (405, "Method Not Allowed"),
    (406, "Not Acceptable"),
    (407, "Proxy Authentication Required"),
    (408, "Request Timeout"),
    (410, "Gone"),
    (413, "Request Entity Too Large"),
    (414, "Request-URI Too Long"),
    (415, "Unsupported Media Type"),
    (416, "Unsupported URI Scheme"),
    (420, "Bad Extension"),
    (421, "Extension Required"),
    (422, "Session Interval Too Small"),
    (423, "Interval Too Brief"),
    (480, "Temporarily Unavailable"),
    (481, "Call/Transaction Does Not Exist"),
    (482, "Loop Detected"),
    (483, "Too Many Hops"),
    (484, "Address Incomplete"),
    (485, "Ambiguous"),
    (486, "Busy Here"),
    (487, "Request Terminated"),
    (488, "Not Acceptable Here"),
    (489, "Bad Event"),
    (491, "Request Pending"),
    (493, "Undecipherable"),
    (500, "Server Internal Error"),
    (501, "Not Implemented"),
    (502, "Bad Gateway"),
    (503, "Service Unavailable"),
    (504, "Server Time-out"),
    (505, "Version Not Supported"),
    (513, "Message Too Large"),
    (600, "Busy Everywhere"),
    (603, "Decline"),
    (604, "Does Not Exist Anywhere"),
    (606, "Not Acceptable")]

def sipStatusPhrase (status : Nat) : Bytes :=
  ascii (((statusPhrases.find? fun entry => entry.1 = status).map Prod.snd).getD "Unknown")

theorem mem_hdrIds (id : SipHdr) : id ∈ hdrIds := by
  cases id <;> decide

theorem sipHdrFrom_name (id : SipHdr) : sipHdrFrom (sipHdrName id) = id := by
  have every : ∀ id ∈ hdrIds, sipHdrFrom (sipHdrName id) = id := by decide
  exact every id (mem_hdrIds id)

theorem sipMethodFrom_name (m : SipMethod) : sipMethodFrom (sipMethodName m) = m := by
  cases m <;> decide

end Pro2Call.Sip
