import RedisPy.Spec.ClusterNodes
import RedisPy.Proofs.ClientInfo
import Mathlib.Data.List.Forall2

/-! `parse_cluster_nodes` reads every node of a rendered `CLUSTER NODES` reply, with its slots
and its migrations in order. -/

namespace RedisPy

/-- The characters of a field: ASCII, and no blank. -/
def isFieldChar (c : Char) : Bool := 33 ≤ c.toNat && c.toNat ≤ 126

def isHexChar (c : Char) : Bool := c.isDigit || (97 ≤ c.toNat && c.toNat ≤ 102)

/-- A slot on its way, as the server writes it. -/
def migrationText (slot : Nat) (arrow node_id : Chars) : Chars :=
  '[' :: (Numeral.natText slot ++ arrow ++ node_id) ++ [']']

/-- An item of the tail of a line. -/
inductive SlotItem where
  | range (start stop : Nat)
  | single (slot : Nat)
  | migrating (slot : Nat) (node_id : Chars)
  | importing (slot : Nat) (node_id : Chars)

namespace SlotItem

/-- The item as the server writes it. -/
def text : SlotItem → Chars
  | range start stop => Numeral.natText start ++ '-' :: Numeral.natText stop
  | single slot => Numeral.natText slot
  | migrating slot node_id => migrationText slot migratingArrow node_id
  | importing slot node_id => migrationText slot importingArrow node_id

/-- The node that a slot moves to or comes from. -/
def peer : SlotItem → Chars
  | range .. => []
  | single _ => []
  | migrating _ node_id => node_id
  | importing _ node_id => node_id

def slots? : SlotItem → Option (List Chars)
  | range start stop => some [Numeral.natText start, Numeral.natText stop]
  | single slot => some [Numeral.natText slot]
  | migrating .. => none
  | importing .. => none

def migration? : SlotItem → Option Migration
  | range .. => none
  | single _ => none
  | migrating slot node_id => some ⟨Numeral.natText slot, node_id, .migrating⟩
  | importing slot node_id => some ⟨Numeral.natText slot, node_id, .importing⟩

end SlotItem

/-- A node of the cluster as `CLUSTER NODES` tells of it. `bus` is the port of the cluster bus
with the hostname. -/
structure NodeRecord where
  node_id : Chars
  address : Chars
  bus : Option (Nat × Option Chars)
  flags : Chars
  master : Option Chars
  ping : Nat
  pong : Nat
  epoch : Nat
  connected : Bool
  items : List SlotItem
  node_id_plain : ∀ c ∈ node_id, isFieldChar c = true
  address_plain : ∀ c ∈ address, isFieldChar c = true ∧ c ≠ '@' ∧ c ≠ ','
  hostname_plain : ∀ cport hostname, bus = some (cport, some hostname) →
    ∀ c ∈ hostname, isFieldChar c = true ∧ c ≠ '@' ∧ c ≠ ','
  flags_plain : ∀ c ∈ flags, isFieldChar c = true
  master_plain : ∀ id, master = some id → ∀ c ∈ id, isFieldChar c = true
  peers_hex : ∀ item ∈ items, ∀ c ∈ item.peer, isHexChar c = true

namespace NodeRecord

variable (r : NodeRecord)

/-- `@cport[,hostname]` -/
def busText : Chars :=
  match r.bus with
  | none => []
  | some (cport, none) => '@' :: Numeral.natText cport
  | some (cport, some hostname) => '@' :: (Numeral.natText cport ++ ',' :: hostname)

def hostname : Chars := ((r.bus.bind Prod.snd).getD [])

def masterText : Chars := r.master.getD ['-']

def linkText : Chars := (if r.connected then "connected" else "disconnected").toList

def fields : List Chars :=
  [r.node_id, r.address ++ r.busText, r.flags, r.masterText, Numeral.natText r.ping,
    Numeral.natText r.pong, Numeral.natText r.epoch, r.linkText]

/-- The record as the server writes it. -/
def line : Chars := [' '].intercalate (r.fields ++ r.items.map SlotItem.text)

/-- The record with its address, as the parser should tell of it. -/
def entry : Chars × NodeDict :=
  (r.address,
    { node_id := r.node_id
      hostname := r.hostname
      flags := r.flags
      master_id := r.masterText
      last_ping_sent := Numeral.natText r.ping
      last_pong_rcvd := Numeral.natText r.pong
      epoch := Numeral.natText r.epoch
      slots := r.items.filterMap SlotItem.slots?
      migrations := r.items.filterMap SlotItem.migration?
      connected := r.connected })

end NodeRecord

/-- The nodes of a cluster. -/
structure NodeTable where
  records : List NodeRecord
  addresses_nodup : (records.map NodeRecord.address).Nodup

namespace NodeTable

variable (t : NodeTable)

def lines : List Chars := t.records.map NodeRecord.line

/-- The reply: every line ends in a line feed. -/
def text : Chars := (t.lines.map (· ++ ['\n'])).flatten

def bytesOf (text : Chars) : Bytes := text.map Numeral.byte

/-- The shapes in which the reply reaches the parser. -/
def responses : List NodesResponse :=
  [.whole (.str t.text), .whole (.bytes (bytesOf t.text)), .lines (t.lines.map .str),
    .lines (t.lines.map fun line => .bytes (bytesOf line))]

/-- One entry for each record, under its address. -/
def nodes : Dict Chars NodeDict where
  items := t.records.map NodeRecord.entry
  nodup := by
    rw [List.map_map]
    exact t.addresses_nodup

end NodeTable

section Characters

theorem isFieldChar_iff {c : Char} : isFieldChar c = true ↔ 33 ≤ c.toNat ∧ c.toNat ≤ 126 := by
  simp [isFieldChar]

theorem isHexChar_iff {c : Char} :
    isHexChar c = true ↔ (48 ≤ c.toNat ∧ c.toNat ≤ 57) ∨ (97 ≤ c.toNat ∧ c.toNat ≤ 102) := by
  have hdigit : c.isDigit = true ↔ 48 ≤ c.toNat ∧ c.toNat ≤ 57 := Char.isDigit_iff_toNat
  simp [isHexChar, hdigit]

theorem isHexChar_of_mem_natText {n : Nat} {c : Char} (h : c ∈ Numeral.natText n) :
    isHexChar c = true := by
  simp [isHexChar, Numeral.natText_isDigit h]

theorem isFieldChar_of_isHexChar {c : Char} (h : isHexChar c = true) : isFieldChar c = true := by
  rw [isHexChar_iff] at h
  rw [isFieldChar_iff]
  omega

theorem isSpaceChar_of_isFieldChar {c : Char} (h : isFieldChar c = true) : isSpaceChar c = false := by
  rw [isFieldChar_iff] at h
  rw [← Bool.not_eq_true]
  simp only [isSpaceChar, Bool.or_eq_true, Bool.and_eq_true, decide_eq_true_eq, beq_iff_eq]
  omega

/-- A character that is no hexadecimal digit occurs in no text of them. -/
theorem not_mem_of_hex {text : Chars} (h : ∀ c ∈ text, isHexChar c = true) {x : Char}
    (hx : isHexChar x = false) : x ∉ text := by
  intro hmem
  rw [h x hmem] at hx
  cases hx

theorem not_mem_natText (n : Nat) {x : Char} (hx : isHexChar x = false) :
    x ∉ Numeral.natText n :=
  not_mem_of_hex (fun _ => isHexChar_of_mem_natText) hx

end Characters

section Items

theorem cutAt_migrationText (slot : Nat) (pat node_id : Chars) :
    Splitting.cutAt ('-' :: pat) (migrationText slot ('-' :: pat) node_id) =
      some ('[' :: Numeral.natText slot, node_id ++ [']']) := by
  have hbefore : '-' ∉ '[' :: Numeral.natText slot := by
    simp [not_mem_natText slot (x := '-') rfl]
  have hcut : Splitting.cutAt ('-' :: pat)
      ('[' :: Numeral.natText slot ++ ('-' :: pat) ++ (node_id ++ [']'])) =
        some ('[' :: Numeral.natText slot, node_id ++ [']']) :=
    Splitting.cutAt_append hbefore _
  simpa [migrationText] using hcut

/-- The brackets go, and what is left is cut at the arrow. -/
theorem parseMigration_text (slot : Nat) (pat node_id : Chars) (state : MigrationState) :
    parseMigration ('-' :: pat) state (migrationText slot ('-' :: pat) node_id) =
      .ok ⟨Numeral.natText slot, node_id, state⟩ := by
  have hbrackets : ((migrationText slot ('-' :: pat) node_id).drop 1).dropLast =
      Numeral.natText slot ++ ('-' :: pat) ++ node_id := by
    rw [migrationText, List.cons_append, List.drop_one, List.tail_cons, List.dropLast_concat]
  rw [parseMigration, hbrackets, Splitting.cutAt_append (not_mem_natText slot rfl)]

/-- What `_parse_slots` makes of one item. -/
theorem parseSlotsFrom_item (item : SlotItem) (h : ∀ c ∈ item.peer, isHexChar c = true)
    (slots : List (List Chars)) (migrations : List Migration) (rest : List Chars) :
    parseSlotsFrom slots migrations (item.text :: rest) =
      parseSlotsFrom (slots ++ item.slots?.toList) (migrations ++ item.migration?.toList) rest := by
  have hmem (n : Nat) {x : Char} (hx : isHexChar x = false) := not_mem_natText n hx
  cases item with
  | range start stop =>
    have hgt : '>' ∉ (SlotItem.range start stop).text := by
      simp [SlotItem.text, hmem start (x := '>') rfl, hmem stop (x := '>') rfl]
    have hlt : '<' ∉ (SlotItem.range start stop).text := by
      simp [SlotItem.text, hmem start (x := '<') rfl, hmem stop (x := '<') rfl]
    have hsplit : (SlotItem.range start stop).text.splitOn '-' =
        [Numeral.natText start, Numeral.natText stop] := by
      rw [SlotItem.text, List.splitOn_append_cons_self_of_not_mem (hmem start rfl),
        List.splitOn_eq_singleton (hmem stop rfl)]
    rw [parseSlotsFrom, Splitting.cutAt_eq_none (by decide) hgt,
      Splitting.cutAt_eq_none (by decide) hlt, hsplit]
    simp [SlotItem.slots?, SlotItem.migration?]
  | single slot =>
    rw [SlotItem.text, parseSlotsFrom, Splitting.cutAt_eq_none (q := '>') (by decide) (hmem slot rfl),
      Splitting.cutAt_eq_none (q := '<') (by decide) (hmem slot rfl),
      List.splitOn_eq_singleton (hmem slot rfl)]
    simp [SlotItem.slots?, SlotItem.migration?]
  | migrating slot node_id =>
    have hcut := cutAt_migrationText slot ['>', '-'] node_id
    have hread := parseMigration_text slot ['>', '-'] node_id .migrating
    simp only [SlotItem.text, parseSlotsFrom, migratingArrow, hcut, hread]
    simp [SlotItem.slots?, SlotItem.migration?, Except.bind, bind]
  | importing slot node_id =>
    have hcut := cutAt_migrationText slot ['<', '-'] node_id
    have hread := parseMigration_text slot ['<', '-'] node_id .importing
    have hid : '>' ∉ node_id := not_mem_of_hex h rfl
    have hgt : '>' ∉ migrationText slot ['-', '<', '-'] node_id := by
      simp [migrationText, not_mem_natText slot (x := '>') rfl, hid]
    have hnone : Splitting.cutAt migratingArrow (migrationText slot ['-', '<', '-'] node_id) = none :=
      Splitting.cutAt_eq_none (q := '>') (by decide) hgt
    simp only [SlotItem.text, parseSlotsFrom, importingArrow, hcut, hread, hnone]
    simp [SlotItem.slots?, SlotItem.migration?, Except.bind, bind]

/-- The items are read in order. -/
theorem parseSlotsFrom_items (items : List SlotItem)
    (h : ∀ item ∈ items, ∀ c ∈ item.peer, isHexChar c = true) (slots : List (List Chars))
    (migrations : List Migration) :
    parseSlotsFrom slots migrations (items.map SlotItem.text) =
      .ok (slots ++ items.filterMap SlotItem.slots?,
        migrations ++ items.filterMap SlotItem.migration?) := by
  induction items generalizing slots migrations with
  | nil => simp [parseSlotsFrom]
  | cons item items ih =>
    rw [List.map_cons, parseSlotsFrom_item item (h item (by simp)), ih fun i hi => h i (by simp [hi])]
    cases item <;> simp [List.filterMap_cons, SlotItem.slots?, SlotItem.migration?]

theorem isFieldChar_of_mem_text (item : SlotItem) (h : ∀ c ∈ item.peer, isHexChar c = true) :
    ∀ c ∈ item.text, isFieldChar c = true := by
  have hnat (n : Nat) (c : Char) (hc : c ∈ Numeral.natText n) : isFieldChar c = true :=
    isFieldChar_of_isHexChar (isHexChar_of_mem_natText hc)
  have hmigration (slot : Nat) (arrow node_id : Chars) (ha : ∀ c ∈ arrow, isFieldChar c = true)
      (hid : ∀ c ∈ node_id, isHexChar c = true) :
      ∀ c ∈ migrationText slot arrow node_id, isFieldChar c = true := by
    intro c hc
    simp only [migrationText, List.mem_cons, List.mem_append, List.cons_append,
      List.not_mem_nil, or_false] at hc
    rcases hc with rfl | ((hc | hc) | hc) | rfl
    · rfl
    · exact hnat slot c hc
    · exact ha c hc
    · exact isFieldChar_of_isHexChar (hid c hc)
    · rfl
  have harrows : (migratingArrow.all isFieldChar && importingArrow.all isFieldChar) = true := by
    decide +kernel
  rw [Bool.and_eq_true, List.all_eq_true, List.all_eq_true] at harrows
  cases item with
  | range start stop =>
    intro c hc
    rcases List.mem_append.mp hc with hc | hc
    · exact hnat start c hc
    · rcases List.mem_cons.mp hc with rfl | hc
      · rfl
      · exact hnat stop c hc
  | single slot => exact hnat slot
  | migrating slot node_id => exact hmigration slot migratingArrow node_id harrows.1 h
  | importing slot node_id => exact hmigration slot importingArrow node_id harrows.2 h

end Items

namespace NodeRecord

variable (r : NodeRecord)

theorem busText_plain : ∀ c ∈ r.busText, isFieldChar c = true := by
  have hnat (n : Nat) (c : Char) (hc : c ∈ Numeral.natText n) : isFieldChar c = true :=
    isFieldChar_of_isHexChar (isHexChar_of_mem_natText hc)
  intro c hc
  rw [busText] at hc
  split at hc
  next => simp at hc
  next cport _ =>
    rcases List.mem_cons.mp hc with rfl | hc
    · rfl
    · exact hnat cport c hc
  next cport hostname hbus =>
    rcases List.mem_cons.mp hc with rfl | hc
    · rfl
    · rcases List.mem_append.mp hc with hc | hc
      · exact hnat cport c hc
      · rcases List.mem_cons.mp hc with rfl | hc
        · rfl
        · exact (r.hostname_plain cport hostname hbus c hc).1

theorem masterText_plain : ∀ c ∈ r.masterText, isFieldChar c = true := by
  rw [masterText]
  cases hm : r.master with
  | none =>
    intro c hc
    rw [List.mem_singleton.mp hc]
    rfl
  | some id => exact r.master_plain id hm

theorem linkText_plain : ∀ c ∈ r.linkText, isFieldChar c = true := by
  have h : ("connected".toList.all isFieldChar && "disconnected".toList.all isFieldChar) = true := by
    decide +kernel
  rw [Bool.and_eq_true, List.all_eq_true, List.all_eq_true] at h
  rw [linkText]
  split
  · exact h.1
  · exact h.2

/-- No piece of the line has a blank in it. -/
theorem pieces_plain : ∀ w ∈ r.fields ++ r.items.map SlotItem.text, ∀ c ∈ w, isFieldChar c = true := by
  have hnat (n : Nat) (c : Char) (hc : c ∈ Numeral.natText n) : isFieldChar c = true :=
    isFieldChar_of_isHexChar (isHexChar_of_mem_natText hc)
  intro w hw
  rcases List.mem_append.mp hw with hw | hw
  · simp only [fields, List.mem_cons, List.not_mem_nil, or_false] at hw
    rcases hw with rfl | rfl | rfl | rfl | rfl | rfl | rfl | rfl
    · exact r.node_id_plain
    · intro c hc
      rcases List.mem_append.mp hc with hc | hc
      · exact (r.address_plain c hc).1
      · exact r.busText_plain c hc
    · exact r.flags_plain
    · exact r.masterText_plain
    · exact hnat r.ping
    · exact hnat r.pong
    · exact hnat r.epoch
    · exact r.linkText_plain
  · obtain ⟨item, hitem, rfl⟩ := List.mem_map.mp hw
    exact isFieldChar_of_mem_text item (r.peers_hex item hitem)

theorem splitOn_line : r.line.splitOn ' ' = r.fields ++ r.items.map SlotItem.text := by
  refine List.splitOn_intercalate ' ' ?_ (by simp [fields])
  intro w hw hmem
  have hblank := r.pieces_plain w hw ' ' hmem
  cases hblank

/-- The characters of a line are blanks and those of its fields. -/
theorem mem_line {c : Char} (h : c ∈ r.line) : c = ' ' ∨ isFieldChar c = true := by
  rcases Splitting.mem_intercalate h with rfl | ⟨w, hw, hc⟩
  · exact .inl rfl
  · exact .inr (r.pieces_plain w hw c hc)

theorem splitOn_address : ((r.address ++ r.busText).splitOn '@').headD [] = r.address := by
  have hat : '@' ∉ r.address := fun hmem => (r.address_plain '@' hmem).2.1 rfl
  rw [busText]
  split
  next => rw [List.append_nil, List.splitOn_eq_singleton hat]; rfl
  next => rw [List.splitOn_append_cons_self_of_not_mem hat]; rfl
  next => rw [List.splitOn_append_cons_self_of_not_mem hat]; rfl

theorem parseHostname_address : parseHostname (r.address ++ r.busText) = .ok r.hostname := by
  have hat : '@' ∉ r.address := fun hmem => (r.address_plain '@' hmem).2.1 rfl
  have hcomma : ',' ∉ r.address := fun hmem => (r.address_plain ',' hmem).2.2 rfl
  rw [parseHostname, busText, hostname]
  cases hbus : r.bus with
  | none => simp [hat]
  | some bus =>
    obtain ⟨cport, host⟩ := bus
    have hport : ',' ∉ Numeral.natText cport := not_mem_natText cport rfl
    cases host with
    | none => simp [hcomma, hport]
    | some host =>
      have hplain := r.hostname_plain cport host hbus
      have hhost : '@' ∉ host := fun hmem => (hplain '@' hmem).2.1 rfl
      have hhost' : ',' ∉ host := fun hmem => (hplain ',' hmem).2.2 rfl
      have hbus' : '@' ∉ Numeral.natText cport ++ ',' :: host := by
        simp [hhost, not_mem_natText cport (x := '@') rfl]
      rw [if_pos (by simp), List.splitOn_append_cons_self_of_not_mem hat,
        List.splitOn_eq_singleton hbus']
      simp [List.splitOn_append_cons_self_of_not_mem hport, List.splitOn_eq_singleton hhost']

/-- One line is read as the entry of its record. -/
theorem parseNodeLine_line : parseNodeLine r.line = .ok r.entry := by
  have hslots := parseSlotsFrom_items r.items r.peers_hex [] []
  have hlink : decide (r.linkText = "connected".toList) = r.connected := by
    rw [linkText]
    cases r.connected <;> decide
  simp only [parseNodeLine, r.splitOn_line, fields, List.cons_append, List.nil_append,
    r.parseHostname_address, r.splitOn_address, hlink, parseSlots, hslots]
  cases hitems : r.items <;> simp [entry, hitems, bind, Except.bind]

end NodeRecord

section Bytes

/-- ASCII text survives the encoding. -/
theorem decodeReplace_ascii {text : Chars} (h : ∀ c ∈ text, c.toNat < 128) :
    (decodeReplace (NodeTable.bytesOf text)).toList = text := by
  rw [decodeReplace, String.toList_ofList, NodeTable.bytesOf]
  induction text with
  | nil => rfl
  | cons c text ih =>
    have hc : c.toNat < 128 := h c (by simp)
    have hbyte : (Numeral.byte c).toNat = c.toNat :=
      UInt8.toNat_ofNat_of_lt' (show c.toNat < 256 by omega)
    rw [List.map_cons, utf8DecodeFrom]
    simp only [hbyte, if_pos hc, Char.ofNat_toNat, ih fun d hd => h d (by simp [hd])]

theorem byteLinesFrom_append {w : Bytes} (hw : ∀ b ∈ w, b ≠ 10 ∧ b ≠ 13) (line bs : Bytes) :
    byteLinesFrom line (w ++ 10 :: bs) = (line ++ w) :: byteLinesFrom [] bs := by
  induction w generalizing line with
  | nil =>
    rw [List.nil_append, byteLinesFrom, if_pos (by decide), List.append_nil]
    simp
  | cons b w ih =>
    obtain ⟨hlf, hcr⟩ := hw b (by simp)
    rw [List.cons_append, byteLinesFrom, if_neg (by simp [hlf, hcr]), ih fun d hd => hw d (by simp [hd])]
    · simp
    · rintro bs' rfl
      exact absurd rfl hcr

theorem splitByteLines_lines {ls : List Bytes} (h : ∀ l ∈ ls, ∀ b ∈ l, b ≠ 10 ∧ b ≠ 13) :
    splitByteLines (ls.map (· ++ [10])).flatten = ls := by
  induction ls with
  | nil => rfl
  | cons l ls ih =>
    rw [List.map_cons, List.flatten_cons, List.append_assoc, List.singleton_append, splitByteLines,
      byteLinesFrom_append (h l (by simp)), List.nil_append]
    exact congrArg _ (ih fun m hm => h m (by simp [hm]))

end Bytes

namespace NodeTable

variable (t : NodeTable)

theorem mem_lines {line : Chars} (h : line ∈ t.lines) {c : Char} (hc : c ∈ line) :
    c = ' ' ∨ isFieldChar c = true := by
  obtain ⟨r, -, rfl⟩ := List.mem_map.mp h
  exact r.mem_line hc

theorem toNat_of_mem_lines {line : Chars} (h : line ∈ t.lines) {c : Char} (hc : c ∈ line) :
    32 ≤ c.toNat ∧ c.toNat < 128 := by
  rcases t.mem_lines h hc with rfl | hfield
  · decide
  · have := isFieldChar_iff.mp hfield
    omega

theorem splitLines_text : splitLines t.text = t.lines := by
  refine splitLines_lines fun line hline c hc => ?_
  rcases t.mem_lines hline hc with rfl | hfield
  · decide
  · rw [← Bool.not_eq_true]
    intro hbreak
    have hspace := isSpaceChar_of_isLineBreak hbreak
    rw [isSpaceChar_of_isFieldChar hfield] at hspace
    cases hspace

theorem splitByteLines_text : splitByteLines (bytesOf t.text) = t.lines.map bytesOf := by
  have hbytes : bytesOf t.text = ((t.lines.map bytesOf).map (· ++ [10])).flatten := by
    rw [bytesOf, text, List.map_flatten, List.map_map, List.map_map]
    refine congrArg _ (List.map_congr_left fun line _ => ?_)
    exact List.map_append
  rw [hbytes, splitByteLines_lines]
  intro l hl b hb
  obtain ⟨line, hline, rfl⟩ := List.mem_map.mp hl
  obtain ⟨c, hc, rfl⟩ := List.mem_map.mp hb
  obtain ⟨hlow, hhigh⟩ := t.toNat_of_mem_lines hline hc
  have hbyte : (Numeral.byte c).toNat = c.toNat :=
    UInt8.toNat_ofNat_of_lt' (show c.toNat < 256 by omega)
  constructor
  · intro he
    rw [he] at hbyte
    have : (10 : UInt8).toNat = 10 := rfl
    omega
  · intro he
    rw [he] at hbyte
    have : (13 : UInt8).toNat = 13 := rfl
    omega

/-- In every shape the parser goes through the lines of the records. -/
theorem nodes_of_response {response : NodesResponse} (h : response ∈ t.responses) :
    response.nodes.map strIfBytes = t.lines := by
  have hdecode : t.lines.map (fun line => strIfBytes (.bytes (bytesOf line))) = t.lines := by
    refine (List.map_congr_left fun line hline => ?_).trans (List.map_id _)
    exact decodeReplace_ascii fun c hc => (t.toNat_of_mem_lines hline hc).2
  have hstr : t.lines.map (fun line => strIfBytes (.str line)) = t.lines := List.map_id _
  simp only [responses, List.mem_cons, List.not_mem_nil, or_false] at h
  rcases h with rfl | rfl | rfl | rfl
  · rw [NodesResponse.nodes, splitLines_text, List.map_map]
    exact hstr
  · rw [NodesResponse.nodes, splitByteLines_text, List.map_map, List.map_map]
    exact hdecode
  · rw [NodesResponse.nodes, List.map_map]
    exact hstr
  · rw [NodesResponse.nodes, List.map_map]
    exact hdecode

end NodeTable

/-- The reply is read back in each of its shapes, and every item of a line is in the slots or
in the migrations. -/
theorem parseClusterNodes_rendered (t : NodeTable) :
    (∀ response ∈ t.responses, parseClusterNodes response = .ok t.nodes) ∧
      ∀ r ∈ t.records, r.entry.2.slots.length + r.entry.2.migrations.length = r.items.length := by
  constructor
  · intro response hresponse
    have hnodes := t.nodes_of_response hresponse
    have hmap : response.nodes.mapM (fun node => parseNodeLine (strIfBytes node)) =
        t.lines.mapM parseNodeLine := by
      rw [← hnodes, List.mapM_map]
      rfl
    have hread : t.lines.mapM parseNodeLine = .ok (t.records.map NodeRecord.entry) := by
      rw [Fallible.mapM_ok_iff_forall₂, NodeTable.lines, List.forall₂_map_left_iff,
        List.forall₂_map_right_iff, List.forall₂_same]
      exact fun r _ => r.parseNodeLine_line
    rw [parseClusterNodes, hmap, hread]
    refine congrArg _ (eq_of_items ?_)
    exact Keyed.items_foldl_put_of_nodup t.nodes.nodup
  · intro r _
    simp only [NodeRecord.entry]
    induction r.items with
    | nil => rfl
    | cons item items ih =>
      cases item <;>
        simp only [List.filterMap_cons, SlotItem.slots?, SlotItem.migration?, List.length_cons] <;>
        omega

/-- A primary with a range, a slot, and slots that leave and arrive. -/
def primaryRecord : NodeRecord where
  node_id := "07c3".toList
  address := "10.0.0.1:6379".toList
  bus := some (16379, some "host-1".toList)
  flags := "myself,master".toList
  master := none
  ping := 0
  pong := 1426238317239
  epoch := 4
  connected := true
  items := [.range 0 5460, .single 5462, .migrating 93 "e7d1".toList, .importing 77 "e7d1".toList]
  node_id_plain := by simp [isFieldChar]
  address_plain := by simp [isFieldChar]
  hostname_plain := by
    intro cport hostname h
    cases h
    simp [isFieldChar]
  flags_plain := by simp [isFieldChar]
  master_plain := by simp
  peers_hex := by
    intro item hitem
    simp only [List.mem_cons, List.not_mem_nil, or_false] at hitem
    rcases hitem with rfl | rfl | rfl | rfl <;> simp [SlotItem.peer, isHexChar]

def replicaRecord : NodeRecord where
  node_id := "e7d1".toList
  address := "10.0.0.2:6379".toList
  bus := some (16379, none)
  flags := "slave".toList
  master := some "07c3".toList
  ping := 0
  pong := 1426238316232
  epoch := 4
  connected := false
  items := []
  node_id_plain := by simp [isFieldChar]
  address_plain := by simp [isFieldChar]
  hostname_plain := by simp
  flags_plain := by simp [isFieldChar]
  master_plain := by
    intro id h
    cases h
    simp [isFieldChar]
  peers_hex := by simp

def primaryAndReplica : NodeTable where
  records := [primaryRecord, replicaRecord]
  addresses_nodup := by decide

example : primaryAndReplica.lines.map String.ofList =
    ["07c3 10.0.0.1:6379@16379,host-1 myself,master - 0 1426238317239 4 connected " ++
        "0-5460 5462 [93->-e7d1] [77-<-e7d1]",
      "e7d1 10.0.0.2:6379@16379 slave 07c3 0 1426238316232 4 disconnected"] := by decide +kernel

end RedisPy
