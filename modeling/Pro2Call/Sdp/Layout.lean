import Mathlib.Data.List.Forall2
import Pro2Call.Sdp.Parse

/-! A description section by section, and how the pools of a message hold it. -/

namespace Pro2Call.Sdp

open Pro2Call.Data

structure Part where
  info : Bytes := []
  conn : Option SdpConn := none
  bws : List SdpBw := []
  attrs : List SdpAttr := []
  deriving DecidableEq, Repr

structure Description where
  origin : Option SdpOrigin := none
  name : Bytes := []
  uri : Bytes := []
  time : Option (Nat × Nat) := none
  session : Part := {}
  media : List (Stream × Part) := []
  deriving DecidableEq, Repr

namespace Description

def attrs (d : Description) : List SdpAttr := d.session.attrs ++ d.media.flatMap (·.2.attrs)

def bws (d : Description) : List SdpBw := d.session.bws ++ d.media.flatMap (·.2.bws)

def fmts (d : Description) : List Bytes := d.media.flatMap (·.1.fmts)

def onPart (d : Description) (change : Part → Part) : Description :=
  match d.media.getLast? with
  | none => { d with session := change d.session }
  | some (stream, part) => { d with media := d.media.dropLast ++ [(stream, change part)] }

def curPart (d : Description) : Part :=
  match d.media.getLast? with
  | none => d.session
  | some (_, part) => part

def addLine (d : Description) (l : Line) : Except SdpErr Description :=
  match l.type with
  | .version => .error .version
  | .origin => (parseOrigin l.value).map fun o => { d with origin := some o }
  | .name => .ok { d with name := l.value }
  | .info => .ok (d.onPart fun part => { part with info := l.value })
  | .uri => .ok { d with uri := l.value }
  | .conn =>
    if d.curPart.conn.isSome then .ok d
    else (parseConn l.value).map fun c => d.onPart fun part => { part with conn := some c }
  | .bw =>
    (parseBw d.bws.length l.value).map fun b =>
      d.onPart fun part => { part with bws := part.bws ++ [b] }
  | .time =>
    if d.time.isSome then .ok d
    else (parseTime l.value).map fun t => { d with time := some t }
  | .media =>
    if sdpMaxMedia ≤ d.media.length then .error .media
    else (parseMedia d.fmts.length l.value).map fun s => { d with media := d.media ++ [(s, {})] }
  | .attr =>
    if sdpMaxAttrs ≤ d.attrs.length then .error .attrs
    else .ok (d.onPart fun part => { part with attrs := part.attrs ++ [attrOf l.value] })
  | .other => .ok d

end Description

def place (attrOff bwOff fmtOff : Nat) (sec : Stream × Part) : SdpMedia where
  type := sec.1.type
  typeName := sec.1.typeName
  port := sec.1.port
  nports := sec.1.nports
  proto := sec.1.proto
  protoName := sec.1.protoName
  title := sec.2.info
  conn := sec.2.conn
  fmtOff := fmtOff
  fmtCount := sec.1.fmts.length
  bwOff := bwOff
  bwCount := sec.2.bws.length
  attrOff := attrOff
  attrCount := sec.2.attrs.length

def placeAll (attrOff bwOff fmtOff : Nat) : List (Stream × Part) → List SdpMedia
  | [] => []
  | first :: rest =>
    place attrOff bwOff fmtOff first ::
      placeAll (attrOff + first.2.attrs.length) (bwOff + first.2.bws.length)
        (fmtOff + first.1.fmts.length) rest

def Description.layout (d : Description) : SdpMsg where
  origin := d.origin
  name := d.name
  info := d.session.info
  uri := d.uri
  conn := d.session.conn
  time := d.time
  bwCount := d.session.bws.length
  attrCount := d.session.attrs.length
  media := placeAll d.session.attrs.length d.session.bws.length 0 d.media
  attrs := d.attrs
  fmts := d.fmts
  bws := d.bws

@[simp] theorem length_placeAll (attrOff bwOff fmtOff : Nat) (media : List (Stream × Part)) :
    (placeAll attrOff bwOff fmtOff media).length = media.length := by
  induction media generalizing attrOff bwOff fmtOff with
  | nil => rfl
  | cons first rest ih => simp [placeAll, ih]

theorem placeAll_concat (attrOff bwOff fmtOff : Nat) (media : List (Stream × Part))
    (last : Stream × Part) :
    placeAll attrOff bwOff fmtOff (media ++ [last]) = placeAll attrOff bwOff fmtOff media ++
        [place (attrOff + (media.flatMap (·.2.attrs)).length)
          (bwOff + (media.flatMap (·.2.bws)).length)
          (fmtOff + (media.flatMap (·.1.fmts)).length) last] := by
  induction media generalizing attrOff bwOff fmtOff with
  | nil => rfl
  | cons first rest ih =>
    simp only [List.cons_append, placeAll, ih, List.flatMap_cons, List.length_append, Nat.add_assoc]

namespace Description

variable (d : Description)

theorem layout_setInfo (v : Bytes) :
    (d.onPart fun part => { part with info := v }).layout = d.layout.setInfo v := by
  rcases List.eq_nil_or_concat d.media with empty | ⟨front, ⟨stream, part⟩, media⟩
  · simp [onPart, layout, SdpMsg.setInfo, SdpMsg.onCur, attrs, bws, fmts, empty, placeAll]
  · simp [onPart, layout, SdpMsg.setInfo, SdpMsg.onCur, attrs, bws, fmts, media,
      placeAll_concat, place]

theorem layout_setConn (c : SdpConn) :
    (d.onPart fun part => { part with conn := some c }).layout = d.layout.setConn c := by
  rcases List.eq_nil_or_concat d.media with empty | ⟨front, ⟨stream, part⟩, media⟩
  · simp [onPart, layout, SdpMsg.setConn, SdpMsg.onCur, attrs, bws, fmts, empty, placeAll]
  · simp [onPart, layout, SdpMsg.setConn, SdpMsg.onCur, attrs, bws, fmts, media,
      placeAll_concat, place]

theorem layout_pushBw (b : SdpBw) :
    (d.onPart fun part => { part with bws := part.bws ++ [b] }).layout = d.layout.pushBw b := by
  rcases List.eq_nil_or_concat d.media with empty | ⟨front, ⟨stream, part⟩, media⟩
  · simp [onPart, layout, SdpMsg.pushBw, SdpMsg.onCur, attrs, bws, fmts, empty, placeAll]
  · simp [onPart, layout, SdpMsg.pushBw, SdpMsg.onCur, attrs, bws, fmts, media,
      placeAll_concat, place]

theorem layout_pushAttr (a : SdpAttr) :
    (d.onPart fun part => { part with attrs := part.attrs ++ [a] }).layout =
      d.layout.pushAttr a := by
  rcases List.eq_nil_or_concat d.media with empty | ⟨front, ⟨stream, part⟩, media⟩
  · simp [onPart, layout, SdpMsg.pushAttr, SdpMsg.onCur, attrs, bws, fmts, empty, placeAll]
  · simp [onPart, layout, SdpMsg.pushAttr, SdpMsg.onCur, attrs, bws, fmts, media,
      placeAll_concat, place]

theorem layout_pushMedia (s : Stream) :
    { d with media := d.media ++ [(s, {})] : Description }.layout = d.layout.pushMedia s := by
  simp [layout, SdpMsg.pushMedia, attrs, bws, fmts, placeAll_concat, place]

theorem layout_curConn : d.layout.curConn = d.curPart.conn := by
  rcases List.eq_nil_or_concat d.media with empty | ⟨front, ⟨stream, part⟩, media⟩
  · simp [layout, SdpMsg.curConn, curPart, empty, placeAll]
  · simp [layout, SdpMsg.curConn, curPart, media, placeAll_concat, place]

end Description

theorem map_map (result : Except SdpErr α) (first : α → β) (second : β → γ) :
    (result.map first).map second = result.map fun value => second (first value) := by
  cases result <;> rfl

theorem parseTyped_layout (d : Description) (l : Line) :
    parseTyped d.layout l.type l.value = (d.addLine l).map Description.layout := by
  obtain ⟨type, v⟩ := l
  cases type with
  | version => rfl
  | origin =>
    dsimp only [parseTyped, Description.addLine]
    rw [map_map]
    rfl
  | name => rfl
  | info => exact congrArg Except.ok (d.layout_setInfo v).symm
  | uri => rfl
  | conn =>
    dsimp only [parseTyped, Description.addLine]
    rw [d.layout_curConn]
    split
    · rfl
    · rw [map_map]
      simp only [d.layout_setConn]
  | bw =>
    dsimp only [parseTyped, Description.addLine]
    rw [map_map]
    simp only [d.layout_pushBw]
    rfl
  | time =>
    dsimp only [parseTyped, Description.addLine]
    change (if d.time.isSome then _ else _) = _
    split
    · rfl
    · rw [map_map]
      rfl
  | media =>
    dsimp only [parseTyped, Description.addLine]
    rw [show d.layout.mediaCount = d.media.length from length_placeAll ..]
    split
    · rfl
    · rw [map_map]
      simp only [d.layout_pushMedia]
      rfl
  | attr =>
    dsimp only [parseTyped, Description.addLine]
    change (if sdpMaxAttrs ≤ d.attrs.length then _ else _) = _
    split
    · rfl
    · exact congrArg Except.ok (d.layout_pushAttr _).symm
  | other => rfl

end Pro2Call.Sdp
