import Pro2Call.Sdp.Layout

namespace Pro2Call.Sdp

open Pro2Call.Data

def sdpLines (p : Bytes) : List Line :=
  if _present : p = [] then []
  else (readLine (lineEnd p).1).toList ++ sdpLines (lineEnd p).2
termination_by p.length
decreasing_by exact lineEnd_length _present

/-- The lines before the first m= line; then each m= line and the lines up to
the next. -/
def sections (ls : List Line) : List Line × List (Line × List Line) := groups (·.type = .media) ls

theorem sections_media {l : Line} (media : l.type = .media) (ls : List Line) :
    sections (l :: ls) = ([], (l, (sections ls).1) :: (sections ls).2) := by
  rw [sections, groups, if_pos (by simpa using media)]
  rfl

theorem sections_other {l : Line} (other : l.type ≠ .media) (ls : List Line) :
    sections (l :: ls) = (l :: (sections ls).1, (sections ls).2) := by
  rw [sections, groups, if_neg (by simpa using other)]
  rfl

def attrLines (ls : List Line) : List SdpAttr :=
  (ls.filter (·.type = .attr)).map fun l => attrOf l.value

def bwOf (v : Bytes) : Option SdpBw :=
  match breakAt colon v with
  | none => none
  | some (bwtype, value) =>
    if bwtype = [] then none else (sdpParseU64 value).map fun value => ⟨bwtype, value⟩

def bwLines (ls : List Line) : List (Option SdpBw) :=
  (ls.filter (·.type = .bw)).map fun l => bwOf l.value

def connLine (ls : List Line) : Option SdpConn :=
  (ls.find? (·.type = .conn)).bind fun l => (parseConn l.value).toOption

def tokens (p : Bytes) : List Bytes :=
  if _present : (field p).1 = [] then [] else (field p).1 :: tokens (field p).2
termination_by p.length
decreasing_by exact field_length _present

def fmtTokens (v : Bytes) : List Bytes := (tokens v).drop 3

theorem parseLines_ok (parsed : parseLines s p = .ok s') :
    (sdpLines p).foldlM Scan.step s = .ok s' := by
  fun_induction parseLines s p with
  | case1 s =>
    rw [sdpLines, dif_pos rfl]
    exact parsed
  | case2 => cases parsed
  | case3 s p present next read ih =>
    rw [sdpLines, dif_neg present, List.foldlM_append]
    unfold parseLine at read
    split at read
    next empty =>
      cases read
      rw [empty]
      exact ih parsed
    next =>
      cases form : readLine (lineEnd p).1 with
      | none =>
        rw [form] at read
        cases read
      | some l =>
        rw [form] at read
        change s.step l = .ok next at read
        simp only [Option.toList_some, List.foldlM_cons, List.foldlM_nil, read]
        exact ih parsed

theorem foldlM_step (ls : List Line) (d : Description) :
    ls.foldlM Scan.step ⟨d.layout, true⟩ =
      (ls.foldlM Description.addLine d).map fun d => ⟨d.layout, true⟩ := by
  induction ls generalizing d with
  | nil => rfl
  | cons l ls ih =>
    have step : Scan.step ⟨d.layout, true⟩ l = (d.addLine l).map fun d => ⟨d.layout, true⟩ := by
      rw [Scan.step, if_pos rfl, parseTyped_layout, map_map]
    rw [List.foldlM_cons, List.foldlM_cons, step]
    cases d.addLine l with
    | error e => rfl
    | ok next => exact ih next

theorem sdpMsgParse_ok (parsed : sdpMsgParse b = .ok m) :
    ∃ first rest d, sdpLines b = first :: rest ∧ first.type = .version ∧
      rest.foldlM Description.addLine {} = .ok d ∧ m = d.layout := by
  unfold sdpMsgParse at parsed
  split at parsed
  · cases parsed
  obtain ⟨s, read, parsed⟩ := exists_of_bind_ok parsed
  split at parsed
  next got =>
    cases parsed
    have run := parseLines_ok read
    cases lines : sdpLines b with
    | nil =>
      rw [lines] at run
      cases run
      contradiction
    | cons first rest =>
      rw [lines, List.foldlM_cons] at run
      obtain ⟨next, start, run⟩ := exists_of_bind_ok run
      unfold Scan.step at start
      rw [if_neg Bool.false_ne_true] at start
      split at start
      · cases start
      next version =>
      split at start
      · cases start
      · cases start
        change rest.foldlM Scan.step ⟨({} : Description).layout, true⟩ = _ at run
        rw [foldlM_step] at run
        obtain ⟨d, added, same⟩ := exists_of_map_ok run
        subst same
        exact ⟨first, rest, d, rfl, by simpa using version, added, rfl⟩
  · cases parsed

namespace Description

def setPart (d : Description) (part : Part) : Description := d.onPart fun _ => part

variable (d : Description)

theorem onPart_eq (change : Part → Part) : d.onPart change = d.setPart (change d.curPart) := by
  rcases List.eq_nil_or_concat d.media with empty | ⟨front, ⟨stream, part⟩, media⟩
  · simp [onPart, setPart, curPart, empty]
  · simp [onPart, setPart, curPart, media]

theorem setPart_curPart : d.setPart d.curPart = d := by
  obtain ⟨origin, name, uri, time, session, media⟩ := d
  rcases List.eq_nil_or_concat media with rfl | ⟨front, ⟨stream, part⟩, rfl⟩
  · rfl
  · simp [onPart, setPart, curPart]

def parts : Part × List (Stream × Part) := (d.session, d.media)

theorem curPart_congr {d d' : Description} (same : d.parts = d'.parts) :
    d.curPart = d'.curPart := by
  obtain ⟨session, media⟩ := Prod.mk.inj same
  simp only [curPart, session, media]

theorem parts_setPart_congr {d d' : Description} (same : d.parts = d'.parts) (part : Part) :
    (d.setPart part).parts = (d'.setPart part).parts := by
  obtain ⟨session, media⟩ := Prod.mk.inj same
  simp only [setPart, onPart, parts, media, session]
  split <;> simp

theorem curPart_setPart (part : Part) : (d.setPart part).curPart = part := by
  rcases List.eq_nil_or_concat d.media with empty | ⟨front, ⟨stream, old⟩, media⟩
  · simp [onPart, setPart, curPart, empty]
  · simp [onPart, setPart, curPart, media]

theorem setPart_setPart (part other : Part) : (d.setPart part).setPart other = d.setPart other := by
  rcases List.eq_nil_or_concat d.media with empty | ⟨front, ⟨stream, old⟩, media⟩
  · simp [onPart, setPart, empty]
  · simp [onPart, setPart, media]

end Description

/-- `after` is `before` with the lines of a section added. -/
structure Grows (before : Part) (ls : List Line) (after : Part) : Prop where
  attrs : after.attrs = before.attrs ++ attrLines ls
  bws : after.bws.map some = before.bws.map some ++ bwLines ls
  conn : after.conn = before.conn.or (connLine ls)
  read : before.conn = none → ∀ l ∈ ls.find? (·.type = .conn), after.conn.isSome

theorem grows_nil (part : Part) : Grows part [] part :=
  ⟨by simp [attrLines], by simp [bwLines], by simp [connLine], by simp⟩

theorem attrLines_cons (l : Line) (ls : List Line) :
    attrLines (l :: ls) = attrLines [l] ++ attrLines ls := by
  by_cases hit : l.type = .attr <;> simp [attrLines, hit]

theorem bwLines_cons (l : Line) (ls : List Line) :
    bwLines (l :: ls) = bwLines [l] ++ bwLines ls := by
  by_cases hit : l.type = .bw <;> simp [bwLines, hit]

theorem Grows.cons {before middle after : Part} {l : Line} {ls : List Line}
    (first : Grows before [l] middle) (rest : Grows middle ls after) :
    Grows before (l :: ls) after := by
  refine ⟨?_, ?_, ?_, ?_⟩
  · rw [rest.attrs, first.attrs, List.append_assoc, ← attrLines_cons]
  · rw [rest.bws, first.bws, List.append_assoc, ← bwLines_cons]
  · rw [rest.conn, first.conn]
    by_cases hit : l.type = .conn
    · have same : connLine (l :: ls) = connLine [l] := by simp [connLine, hit]
      rw [same]
      cases earlier : before.conn with
      | some c => rfl
      | none =>
        have present := first.read earlier l (by simp [hit])
        rw [first.conn, earlier, Option.none_or] at present
        rw [Option.none_or, Option.or_of_isSome present]
    · simp [connLine, hit]
  · intro earlier other found
    by_cases hit : l.type = .conn
    · have present := first.read earlier l (by simp [hit])
      rw [rest.conn, Option.or_of_isSome present]
      exact present
    · have unset : middle.conn = none := by
        rw [first.conn, earlier]
        simp [connLine, hit]
      exact rest.read unset other (by simpa [hit] using found)

theorem grows_other {before after : Part} {l : Line} (attr : l.type ≠ .attr)
    (bw : l.type ≠ .bw) (conn : l.type ≠ .conn) (attrs : after.attrs = before.attrs)
    (bws : after.bws = before.bws) (same : after.conn = before.conn) :
    Grows before [l] after :=
  ⟨by simp [attrLines, attr, attrs], by simp [bwLines, bw, bws],
    by simp [connLine, conn, same], by simp [conn]⟩

theorem parseBw_ok (parsed : parseBw nbw v = .ok b) : bwOf v = some b := by
  unfold parseBw at parsed
  unfold bwOf
  cases found : breakAt colon v with
  | none =>
    rw [found] at parsed
    cases parsed
  | some parts =>
    obtain ⟨bwtype, value⟩ := parts
    rw [found] at parsed
    dsimp only at parsed ⊢
    split at parsed
    · cases parsed
    next named =>
    split at parsed
    · cases parsed
    rw [if_neg named]
    unfold parseBwValue at parsed
    split at parsed
    · cases parsed
    next number =>
      cases parsed
      rw [number]
      rfl

theorem addLine_grows {d d' : Description} {l : Line} (other : l.type ≠ .media)
    (added : d.addLine l = .ok d') :
    ∃ part, Grows d.curPart [l] part ∧ d'.parts = (d.setPart part).parts := by
  obtain ⟨type, v⟩ := l
  -- Lines of the session as a whole leave the sections as they are.
  have aside {d'' : Description} (same : d''.parts = d.parts) (attr : type ≠ .attr)
      (bw : type ≠ .bw) (conn : type ≠ .conn) :
      ∃ part, Grows d.curPart [⟨type, v⟩] part ∧ d''.parts = (d.setPart part).parts := by
    refine ⟨d.curPart, grows_other attr bw conn rfl rfl rfl, ?_⟩
    rw [d.setPart_curPart]
    exact same
  cases type with
  | version => cases added
  | origin =>
    obtain ⟨o, _, rfl⟩ := exists_of_map_ok added
    exact aside rfl (by decide) (by decide) (by decide)
  | name =>
    cases added
    exact aside rfl (by decide) (by decide) (by decide)
  | info =>
    cases added
    refine ⟨{ d.curPart with info := v }, ?_, by rw [d.onPart_eq]⟩
    exact grows_other (by simp) (by simp) (by simp) rfl rfl rfl
  | uri =>
    cases added
    exact aside rfl (by decide) (by decide) (by decide)
  | conn =>
    dsimp only [Description.addLine] at added
    split at added
    next earlier =>
      cases added
      refine ⟨d.curPart, ⟨by simp [attrLines], by simp [bwLines], ?_, ?_⟩, by
        rw [d.setPart_curPart]⟩
      · rw [Option.or_of_isSome earlier]
      · intro unset
        rw [unset] at earlier
        contradiction
    next earlier =>
      obtain ⟨c, parsed, rfl⟩ := exists_of_map_ok added
      refine ⟨{ d.curPart with conn := some c },
        ⟨by simp [attrLines], by simp [bwLines], ?_, by simp⟩, by rw [d.onPart_eq]⟩
      rw [Option.not_isSome_iff_eq_none.mp earlier]
      simp [connLine, parsed, Except.toOption]
  | bw =>
    obtain ⟨b, parsed, rfl⟩ := exists_of_map_ok added
    refine ⟨{ d.curPart with bws := d.curPart.bws ++ [b] }, ⟨by simp [attrLines], ?_,
      by simp [connLine], by simp⟩, by rw [d.onPart_eq]⟩
    simp [bwLines, parseBw_ok parsed]
  | time =>
    dsimp only [Description.addLine] at added
    split at added
    · cases added
      exact aside rfl (by decide) (by decide) (by decide)
    · obtain ⟨t, _, rfl⟩ := exists_of_map_ok added
      exact aside rfl (by decide) (by decide) (by decide)
  | media => contradiction
  | attr =>
    dsimp only [Description.addLine] at added
    split at added
    · cases added
    · cases added
      exact ⟨{ d.curPart with attrs := d.curPart.attrs ++ [attrOf v] },
        ⟨by simp [attrLines], by simp [bwLines], by simp [connLine], by simp⟩,
        by rw [d.onPart_eq]⟩
  | other =>
    cases added
    exact aside rfl (by decide) (by decide) (by decide)

theorem tokens_cons (present : (field p).1 ≠ []) :
    tokens p = (field p).1 :: tokens (field p).2 := by
  rw [tokens, dif_neg present]

theorem fieldsN_tokens (read : fieldsN n p = some (fs, rest)) : tokens p = fs ++ tokens rest := by
  induction n generalizing p fs with
  | zero =>
    cases read
    rfl
  | succ n ih =>
    rw [fieldsN] at read
    split at read
    · cases read
    next present =>
      obtain ⟨⟨others, tail⟩, more, same⟩ := Option.map_eq_some_iff.mp read
      cases same
      rw [tokens_cons present, ih more]
      rfl

theorem parseFmts_ok {fmts : List Bytes}
    (parsed : parseFmts nfmt p = .ok fmts) : fmts = tokens p := by
  fun_induction parseFmts nfmt p generalizing fmts with
  | case1 nfmt p missing =>
    cases parsed
    rw [tokens, dif_pos missing]
  | case2 => cases parsed
  | case3 nfmt p present _ ih =>
    obtain ⟨others, more, rfl⟩ := exists_of_map_ok parsed
    rw [tokens_cons present, ih more]

def mediaOf (v : Bytes) : Option Stream :=
  match fieldsN 3 v with
  | some ([type, port, prot], rest) =>
    (parsePort port).map fun ports =>
      ⟨sdpMtypeFrom type, type, ports.1, ports.2, sdpProtoFrom prot, prot, tokens rest⟩
  | _ => none

theorem parseMedia_ok (parsed : parseMedia nfmt v = .ok s) : mediaOf v = some s := by
  unfold parseMedia at parsed
  split at parsed
  next type port prot rest read =>
    split at parsed
    · cases parsed
    next ports =>
      obtain ⟨fmts, more, rfl⟩ := exists_of_map_ok parsed
      simp only [mediaOf, read, ports, parseFmts_ok more, Option.map_some]
  · cases parsed

theorem mediaOf_fmts (said : mediaOf v = some s) : s.fmts = fmtTokens v := by
  unfold mediaOf at said
  split at said
  next type port prot rest read =>
    obtain ⟨ports, _, rfl⟩ := Option.map_eq_some_iff.mp said
    rw [fmtTokens, fieldsN_tokens read]
    rfl
  · cases said

structure FromText (sec : Stream × Part) (text : Line × List Line) : Prop where
  stream : mediaOf text.1.value = some sec.1
  part : Grows {} text.2 sec.2

theorem addLines_sections {ls : List Line} {d d' : Description}
    (added : ls.foldlM Description.addLine d = .ok d') :
    ∃ part, Grows d.curPart (sections ls).1 part ∧
      ∃ media, List.Forall₂ FromText media (sections ls).2 ∧
        d'.parts = ((d.setPart part).session, (d.setPart part).media ++ media) := by
  induction ls generalizing d with
  | nil =>
    have same : d' = d := (Except.ok.inj added).symm
    refine ⟨d.curPart, grows_nil _, [], .nil, ?_⟩
    rw [d.setPart_curPart, List.append_nil, same]
    rfl
  | cons l ls ih =>
    rw [List.foldlM_cons] at added
    obtain ⟨next, first, added⟩ := exists_of_bind_ok added
    obtain ⟨part, grows, media, sources, parts⟩ := ih added
    by_cases isMedia : l.type = .media
    · rw [sections_media isMedia]
      obtain ⟨type, v⟩ := l
      subst isMedia
      dsimp only [Description.addLine] at first
      split at first
      · cases first
      · obtain ⟨s, parsed, rfl⟩ := exists_of_map_ok first
        refine ⟨d.curPart, grows_nil _, (s, part) :: media,
          .cons ⟨parseMedia_ok parsed, ?_⟩ sources, ?_⟩
        · simpa [Description.curPart] using grows
        · rw [parts, d.setPart_curPart]
          simp [Description.setPart, Description.onPart]
    · obtain ⟨middle, step, same⟩ := addLine_grows isMedia first
      rw [sections_other isMedia]
      rw [Description.curPart_congr same, d.curPart_setPart] at grows
      refine ⟨part, step.cons grows, media, sources, ?_⟩
      have again := Description.parts_setPart_congr same part
      rw [d.setPart_setPart] at again
      obtain ⟨session, list⟩ := Prod.mk.inj again
      rw [parts, session, list]

theorem addLines_description {ls : List Line} {d : Description}
    (added : ls.foldlM Description.addLine {} = .ok d) :
    Grows {} (sections ls).1 d.session ∧ List.Forall₂ FromText d.media (sections ls).2 := by
  obtain ⟨part, grows, media, sources, parts⟩ := addLines_sections added
  obtain ⟨session, list⟩ := Prod.mk.inj parts
  rw [session, list]
  exact ⟨grows, sources⟩

/-- Runs, each an offset and a count, that follow one another from `start` to
`stop`. -/
def Consecutive (start : Nat) : List (Nat × Nat) → Nat → Prop
  | [], stop => start = stop
  | run :: runs, stop => run.1 = start ∧ Consecutive (start + run.2) runs stop

theorem placeAll_consecutive (attrOff bwOff fmtOff : Nat) (media : List (Stream × Part)) :
    Consecutive attrOff
        ((placeAll attrOff bwOff fmtOff media).map fun md => (md.attrOff, md.attrCount))
        (attrOff + (media.flatMap (·.2.attrs)).length) ∧
      Consecutive bwOff ((placeAll attrOff bwOff fmtOff media).map fun md => (md.bwOff, md.bwCount))
        (bwOff + (media.flatMap (·.2.bws)).length) ∧
      Consecutive fmtOff
        ((placeAll attrOff bwOff fmtOff media).map fun md => (md.fmtOff, md.fmtCount))
        (fmtOff + (media.flatMap (·.1.fmts)).length) := by
  induction media generalizing attrOff bwOff fmtOff with
  | nil => exact ⟨rfl, rfl, rfl⟩
  | cons first rest ih =>
    obtain ⟨attrs, bws, fmts⟩ := ih (attrOff + first.2.attrs.length)
      (bwOff + first.2.bws.length) (fmtOff + first.1.fmts.length)
    simp only [List.flatMap_cons, List.length_append, ← Nat.add_assoc]
    exact ⟨⟨rfl, attrs⟩, ⟨rfl, bws⟩, ⟨rfl, fmts⟩⟩

def SdpMedia.stream (fmts : List Bytes) (md : SdpMedia) : Stream :=
  ⟨md.type, md.typeName, md.port, md.nports, md.proto, md.protoName,
    slice fmts md.fmtOff md.fmtCount⟩

structure Holds (attrs : List SdpAttr) (bws : List SdpBw) (fmts : List Bytes)
    (md : SdpMedia) (sec : Stream × Part) : Prop where
  attrs : slice attrs md.attrOff md.attrCount = sec.2.attrs
  bws : slice bws md.bwOff md.bwCount = sec.2.bws
  stream : md.stream fmts = sec.1
  conn : md.conn = sec.2.conn

theorem Holds.fmts {attrs : List SdpAttr} {bws : List SdpBw} {fmts : List Bytes}
    (holds : Holds attrs bws fmts md sec) :
    slice fmts md.fmtOff md.fmtCount = sec.1.fmts :=
  congrArg Stream.fmts holds.stream

theorem placeAll_holds (attrs : List SdpAttr) (bws : List SdpBw) (fmts : List Bytes)
    (media : List (Stream × Part)) :
    List.Forall₂ (Holds (attrs ++ media.flatMap (·.2.attrs)) (bws ++ media.flatMap (·.2.bws))
        (fmts ++ media.flatMap (·.1.fmts)))
      (placeAll attrs.length bws.length fmts.length media) media := by
  induction media generalizing attrs bws fmts with
  | nil => exact .nil
  | cons first rest ih =>
    have others := ih (attrs ++ first.2.attrs) (bws ++ first.2.bws) (fmts ++ first.1.fmts)
    simp only [List.length_append, List.append_assoc] at others
    simp only [List.flatMap_cons]
    refine .cons ⟨?_, ?_, ?_, rfl⟩ others
    · rw [← List.append_assoc]
      exact slice_append_length ..
    · rw [← List.append_assoc]
      exact slice_append_length ..
    · rw [← List.append_assoc]
      simp only [SdpMedia.stream, place]
      rw [slice_append_length]

theorem Description.layout_holds (d : Description) :
    List.Forall₂ (Holds d.layout.attrs d.layout.bws d.layout.fmts) d.layout.media d.media :=
  placeAll_holds d.session.attrs d.session.bws [] d.media

/-- The pools of `m` are split into runs, one for each section of a text, and
each run lists the lines of its section. -/
structure Runs (m : SdpMsg) (text : List Line × List (Line × List Line)) : Prop where
  sessionAttrs : slice m.attrs 0 m.attrCount = attrLines text.1
  sessionBws : (slice m.bws 0 m.bwCount).map some = bwLines text.1
  attrs : Consecutive m.attrCount (m.media.map fun md => (md.attrOff, md.attrCount)) m.attrs.length
  bws : Consecutive m.bwCount (m.media.map fun md => (md.bwOff, md.bwCount)) m.bws.length
  fmts : Consecutive 0 (m.media.map fun md => (md.fmtOff, md.fmtCount)) m.fmts.length
  media : List.Forall₂ (fun md sec =>
      slice m.attrs md.attrOff md.attrCount = attrLines sec.2 ∧
        (slice m.bws md.bwOff md.bwCount).map some = bwLines sec.2 ∧
        slice m.fmts md.fmtOff md.fmtCount = fmtTokens sec.1.value)
    m.media text.2

theorem forall₂_trans (left : List.Forall₂ first as bs) (right : List.Forall₂ second bs cs) :
    List.Forall₂ (fun a c => ∃ b, first a b ∧ second b c) as cs := by
  induction left generalizing cs with
  | nil =>
    cases right
    exact .nil
  | cons head tail ih =>
    cases right with
    | cons other others => exact .cons ⟨_, head, other⟩ (ih others)

theorem sdpMsgParse_sections (parsed : sdpMsgParse b = .ok m) :
    ∃ d : Description, m = d.layout ∧ Grows {} (sections (sdpLines b)).1 d.session ∧
      List.Forall₂ FromText d.media (sections (sdpLines b)).2 := by
  obtain ⟨first, rest, d, lines, version, added, rfl⟩ := sdpMsgParse_ok parsed
  obtain ⟨grows, sources⟩ := addLines_description added
  have other : first.type ≠ .media := by rw [version]; decide
  have lead : Grows {} [first] {} := by
    apply grows_other <;> first | rfl | (rw [version]; decide)
  rw [lines, sections_other other]
  exact ⟨d, rfl, lead.cons grows, sources⟩

theorem slice_zero_append (front back : List α) : slice (front ++ back) 0 front.length = front := by
  simp [slice]

/-- The runs of an accepted text follow one another, cover the pools, and list
the lines of their own sections in order. -/
theorem sdpMsgParse_runs {b : Bytes} {m : SdpMsg} (parsed : sdpMsgParse b = .ok m) :
    Runs m (sections (sdpLines b)) := by
  obtain ⟨d, rfl, grows, sources⟩ := sdpMsgParse_sections parsed
  obtain ⟨attrs, bws, fmts⟩ := placeAll_consecutive d.session.attrs.length
    d.session.bws.length 0 d.media
  refine ⟨?_, ?_, ?_, ?_, ?_, ?_⟩
  · rw [← List.nil_append (attrLines _), ← grows.attrs]
    exact slice_zero_append ..
  · rw [← List.nil_append (bwLines _)]
    refine Eq.trans ?_ grows.bws
    exact congrArg _ (slice_zero_append ..)
  · rw [← List.length_append] at attrs
    exact attrs
  · rw [← List.length_append] at bws
    exact bws
  · rw [Nat.zero_add] at fmts
    exact fmts
  · apply (forall₂_trans d.layout_holds sources).imp
    intro md text ⟨sec, holds, source⟩
    refine ⟨holds.attrs.trans source.part.attrs, ?_, holds.fmts.trans (mediaOf_fmts source.stream)⟩
    rw [holds.bws]
    exact source.part.bws

def offerText : Bytes :=
  ascii "v=0\r\n" ++ ascii "c=IN IP4 h\r\n" ++ ascii "a=sendonly\r\n" ++
    ascii "m=audio 9 udp 0 8\r\n" ++ ascii "b=AS:64\r\n" ++ ascii "a=mid:1\r\n" ++
    ascii "m=video 0 udp\r\n" ++ ascii "c=IN IP4 g\r\n" ++ ascii "a=inactive\r\n"

def offerMsg : SdpMsg where
  conn := some ⟨ascii "IN", ascii "IP4", ascii "h"⟩
  attrCount := 1
  media :=
    [{ type := .audio
       typeName := ascii "audio"
       port := 9
       nports := 1
       proto := .udp
       protoName := ascii "udp"
       fmtOff := 0
       fmtCount := 2
       bwOff := 0
       bwCount := 1
       attrOff := 1
       attrCount := 1 },
     { type := .video
       typeName := ascii "video"
       port := 0
       nports := 1
       proto := .udp
       protoName := ascii "udp"
       conn := some ⟨ascii "IN", ascii "IP4", ascii "g"⟩
       fmtOff := 2
       fmtCount := 0
       bwOff := 1
       attrOff := 2
       attrCount := 1 }]
  attrs := [⟨.sendonly, ascii "sendonly", []⟩, ⟨.mid, ascii "mid", ascii "1"⟩,
    ⟨.inactive, ascii "inactive", []⟩]
  fmts := [ascii "0", ascii "8"]
  bws := [⟨ascii "AS", 64⟩]

theorem offerText_parsed : sdpMsgParse offerText = .ok offerMsg := by
  simp only [offerText, offerMsg, ascii, String.reduceToList]
  decide +kernel

theorem sdpMsgParse_runs_offer :
    sdpMsgParse offerText = .ok offerMsg ∧ Runs offerMsg (sections (sdpLines offerText)) :=
  ⟨offerText_parsed, sdpMsgParse_runs offerText_parsed⟩

def dirLine (ls : List Line) : Option SdpDir := (attrLines ls).findSome? attrDir

/-- A section's own direction and connection come first, then the session's. -/
theorem sdpMediaDir_conn {b : Bytes} {m : SdpMsg} (parsed : sdpMsgParse b = .ok m) :
    List.Forall₂ (fun md sec =>
        sdpMediaDir m (some md) =
            ((dirLine sec.2).or (dirLine (sections (sdpLines b)).1)).getD .sendrecv ∧
          sdpMediaConn m (some md) = (connLine sec.2).or (connLine (sections (sdpLines b)).1))
      m.media (sections (sdpLines b)).2 := by
  obtain ⟨d, rfl, grows, sources⟩ := sdpMsgParse_sections parsed
  have session : sectionDir d.layout none = dirLine (sections (sdpLines b)).1 := by
    have attrs : d.session.attrs = attrLines (sections (sdpLines b)).1 := grows.attrs
    rw [dirLine, ← attrs]
    exact congrArg _ (slice_zero_append ..)
  apply (forall₂_trans d.layout_holds sources).imp
  intro md text ⟨sec, holds, source⟩
  constructor
  · have own : sectionDir d.layout (some md) = dirLine text.2 := by
      have attrs : sec.2.attrs = attrLines text.2 := source.part.attrs
      simp only [sectionDir, attrRange, Nat.add_sub_cancel_left]
      rw [holds.attrs, attrs, dirLine]
    simp only [sdpMediaDir, own, session]
    cases dirLine text.2 <;> simp
  · have own : md.conn = connLine text.2 := by
      rw [holds.conn, source.part.conn, Option.none_or]
    have outer : d.layout.conn = connLine (sections (sdpLines b)).1 := by
      have conn := grows.conn
      rwa [Option.none_or] at conn
    simp only [sdpMediaConn, own, outer]
    cases connLine text.2 <;> rfl

theorem sdpMediaDir_conn_offer :
    sdpMsgParse offerText = .ok offerMsg ∧ List.Forall₂ (fun md sec =>
          sdpMediaDir offerMsg (some md) =
              ((dirLine sec.2).or (dirLine (sections (sdpLines offerText)).1)).getD .sendrecv ∧
            sdpMediaConn offerMsg (some md) =
              (connLine sec.2).or (connLine (sections (sdpLines offerText)).1))
        offerMsg.media (sections (sdpLines offerText)).2 :=
  ⟨offerText_parsed, sdpMediaDir_conn offerText_parsed⟩

end Pro2Call.Sdp
