import MiniCloud.Dns.Query
import MiniCloud.Library.Fields

/-!
# The answer section

What stands after the question of a response.  A name is written label by label, so that
it is read back as the labels that were written.  The records are counted before it is
known whether their addresses are of IPv4, in sixteen bits, and the head of a record
is written also for one without such an address; a label of the query that contains a
dot is written as several.  The code for an unknown name is put into the buffer of the
query when the header of the response has already been copied.
-/

namespace MiniCloud.Dns

/-! ## Names on the wire -/

def encode (labels : List Bytes) : Bytes :=
  (labels.flatMap fun label => UInt8.ofNat label.length :: label) ++ [0]

/-- The labels have a length that is no pointer, and are not empty. -/
def Short (labels : List Bytes) : Prop := ∀ label ∈ labels, label ≠ [] ∧ label.length < 192

theorem writeName_eq (name : Bytes) : writeName name = encode (labelsOf name) := by
  have pieces : ∀ labels : List Bytes,
      (labels.flatMap fun label => if label = [] then [] else UInt8.ofNat label.length :: label) =
        (labels.filter fun label => label != []).flatMap fun label =>
          UInt8.ofNat label.length :: label := by
    intro labels
    induction labels with
    | nil => rfl
    | cons label rest ih =>
        rw [List.flatMap_cons, ih, List.filter_cons]
        by_cases empty : label = []
        · simp [empty]
        · simp [empty]
  rw [writeName, pieces, encode, labelsOf]

theorem encode_cons (label : Bytes) (labels : List Bytes) :
    encode (label :: labels) = UInt8.ofNat label.length :: (label ++ encode labels) := by
  rw [encode, List.flatMap_cons, List.cons_append, List.cons_append, List.append_assoc, encode]

theorem encode_pos (labels : List Bytes) : 0 < (encode labels).length := by
  rw [encode, List.length_append, List.length_singleton]
  exact Nat.succ_pos _

theorem item_label {before after label : Bytes} (nonempty : label ≠ []) (short : label.length < 192) :
    item (before ++ (UInt8.ofNat label.length :: (label ++ after))) before.length = .label label := by
  have size : (UInt8.ofNat label.length).toNat = label.length := by
    rw [UInt8.toNat_ofNat']
    omega
  have positive : label.length ≠ 0 := List.length_eq_zero_iff.not.mpr nonempty
  have first : (before ++ (UInt8.ofNat label.length :: (label ++ after)))[before.length]? =
      some (UInt8.ofNat label.length) := by
    rw [List.getElem?_append_right le_rfl, Nat.sub_self]
    rfl
  have fits : ¬(before ++ (UInt8.ofNat label.length :: (label ++ after))).length <
      before.length + 1 + label.length := by
    simp only [List.length_append, List.length_cons]
    omega
  have bytes : ((before ++ (UInt8.ofNat label.length :: (label ++ after))).drop
      (before.length + 1)).take label.length = label := by
    rw [List.drop_append, List.drop_of_length_le (Nat.le_succ _), Nat.add_sub_cancel_left,
      List.nil_append, List.drop_succ_cons, List.drop_zero, List.take_left]
  rw [item, first]
  simp only [size]
  rw [if_neg positive, if_neg (Nat.not_le.mpr short), if_neg fits, bytes]

theorem item_root (before after : Bytes) : item (before ++ 0 :: after) before.length = .root := by
  rw [item, List.getElem?_append_right le_rfl, Nat.sub_self]
  rfl

/-- The labels at an offset up to the root, without a pointer, and the offset behind it. -/
inductive Spells (buf : Bytes) : Nat → List Bytes → Nat → Prop where
  | root {off : Nat} (root : item buf off = .root) : Spells buf off [] (off + 1)
  | label {off next : Nat} {bytes : Bytes} {labels : List Bytes}
      (label : item buf off = .label bytes)
      (rest : Spells buf (off + 1 + bytes.length) labels next) :
      Spells buf off (bytes :: labels) next

theorem Spells.decodes {buf : Bytes} {off next : Nat} {labels : List Bytes}
    (spells : Spells buf off labels next) : Decodes buf off labels next := by
  induction spells with
  | root root => exact .root root
  | label label _ ih => exact .label label ih

/-- What is written can be spelled. -/
theorem spells_encode {labels : List Bytes} (short : Short labels) (before after : Bytes) :
    Spells (before ++ (encode labels ++ after)) before.length labels
      (before.length + (encode labels).length) := by
  induction labels generalizing before with
  | nil => exact .root (item_root before after)
  | cons label labels ih =>
      obtain ⟨nonempty, small⟩ := short label List.mem_cons_self
      have restShort : Short labels := fun other listed => short other (List.mem_cons_of_mem _ listed)
      rw [encode_cons, List.cons_append, List.append_assoc]
      have rest := ih restShort (before ++ UInt8.ofNat label.length :: label)
      have whole : before ++ UInt8.ofNat label.length :: label ++ (encode labels ++ after) =
          before ++ UInt8.ofNat label.length :: (label ++ (encode labels ++ after)) := by
        rw [List.append_assoc, List.cons_append]
      have start : (before ++ UInt8.ofNat label.length :: label).length =
          before.length + 1 + label.length := by
        rw [List.length_append, List.length_cons]
        omega
      have stop : before.length + 1 + label.length + (encode labels).length =
          before.length + (UInt8.ofNat label.length :: (label ++ encode labels)).length := by
        rw [List.length_cons, List.length_append]
        omega
      rw [whole, start, stop] at rest
      exact .label (item_label nonempty small) rest

/-- What is written is read back. -/
theorem decodes_encode {labels : List Bytes} (short : Short labels) (before after : Bytes) :
    Decodes (before ++ (encode labels ++ after)) before.length labels
      (before.length + (encode labels).length) :=
  (spells_encode short before after).decodes

/-- A name takes at most the bytes that writing it would take, and one more for a pointer. -/
theorem Decodes.next_le {buf : Bytes} {off next : Nat} {labels : List Bytes}
    (decodes : Decodes buf off labels next) : next ≤ off + (encode labels).length + 1 := by
  induction decodes with
  | root _ => exact Nat.le_succ _
  | pointer _ _ _ =>
      rename_i labels _ _ _
      have positive := encode_pos labels
      omega
  | label _ _ ih =>
      rw [encode_cons, List.length_cons, List.length_append]
      omega

theorem Decodes.short {buf : Bytes} {off next : Nat} {labels : List Bytes}
    (decodes : Decodes buf off labels next) : Short labels := by
  induction decodes with
  | root _ => exact fun label listed => absurd listed List.not_mem_nil
  | pointer _ _ ih => exact ih
  | label label _ ih =>
      intro other listed
      rcases List.mem_cons.mp listed with rfl | later
      · exact label_short label
      · exact ih other later

theorem mem_labelsOf {name label : Bytes} (member : label ∈ labelsOf name) :
    label ≠ [] ∧ dot ∉ label ∧ label.length ≤ name.length := by
  obtain ⟨piece, nonempty⟩ := List.mem_filter.mp member
  exact ⟨bne_iff_ne.mp nonempty, Library.Fields.mem_splitOn piece⟩

theorem labelsOf_plain {label : Bytes} (nonempty : label ≠ []) (plain : dot ∉ label) :
    labelsOf label = [label] := by
  rw [labelsOf, List.splitOn_eq_singleton plain]
  exact List.filter_eq_self.mpr fun other listed => by
    rw [List.mem_singleton.mp listed]
    exact bne_iff_ne.mpr nonempty

/-- Labels are written as they were read exactly if no dot is in them. -/
theorem flatMap_labelsOf_iff {labels : List Bytes} (short : Short labels) :
    labels.flatMap labelsOf = labels ↔ ∀ label ∈ labels, dot ∉ label := by
  constructor
  · intro same label listed
    rw [← same] at listed
    obtain ⟨_, _, piece⟩ := List.mem_flatMap.mp listed
    exact (mem_labelsOf piece).2.1
  · intro plain
    have single : labels.flatMap labelsOf = labels.flatMap fun label => [label] :=
      List.flatMap_congr fun label listed => labelsOf_plain (short label listed).1 (plain label listed)
    rw [single, List.flatMap_singleton']

theorem Short.flatMap_labelsOf {labels : List Bytes} (short : Short labels) :
    Short (labels.flatMap labelsOf) := by
  intro piece listed
  obtain ⟨label, fromQuery, isPiece⟩ := List.mem_flatMap.mp listed
  obtain ⟨nonempty, _, within⟩ := mem_labelsOf isPiece
  exact ⟨nonempty, Nat.lt_of_le_of_lt within (short label fromQuery).2⟩

/-! ## Resource records -/

structure ResourceRecord where
  labels : List Bytes
  rtype : Nat
  rclass : Nat
  data : Bytes
  deriving DecidableEq, Repr

/-- The record of type A and class IN with an address. -/
def aRecord (labels : List Bytes) : UInt8 × UInt8 × UInt8 × UInt8 → ResourceRecord
  | (a, b, c, d) => ⟨labels, 1, 1, [a, b, c, d]⟩

/-- A complete record stands between two offsets: its name, type, class, lifetime, the
length of its data, and the data. -/
def ReadsRecord (buf : Bytes) (off : Nat) (rr : ResourceRecord) (next : Nat) : Prop :=
  ∃ behind, Decodes buf off rr.labels behind ∧ get16 buf behind = rr.rtype ∧
    get16 buf (behind + 2) = rr.rclass ∧ get16 buf (behind + 8) = rr.data.length ∧
      (buf.drop (behind + 10)).take rr.data.length = rr.data ∧
        next = behind + 10 + rr.data.length ∧ next ≤ buf.length

inductive ReadsRecords (buf : Bytes) : Nat → List ResourceRecord → Nat → Prop where
  | nil (off : Nat) : ReadsRecords buf off [] off
  | cons {off next stop : Nat} {rr : ResourceRecord} {rrs : List ResourceRecord}
      (first : ReadsRecord buf off rr next) (rest : ReadsRecords buf next rrs stop) :
      ReadsRecords buf off (rr :: rrs) stop

/-- The addresses of the records that have one of IPv4. -/
def addresses (lib : Lib) (records : List DNSRecord) : List (UInt8 × UInt8 × UInt8 × UInt8) :=
  records.filterMap fun r => lib.parseIP4 r.ip

/-- What stands from an offset on are as many records as the header says, with the name
and the addresses in their order. -/
def AnswersAt (lib : Lib) (resp : Bytes) (start : Nat) (labels : List Bytes)
    (records : List DNSRecord) : Prop :=
  (addresses lib records).length = get16 resp 6 ∧
    ReadsRecords resp start ((addresses lib records).map (aRecord labels)) resp.length

/-- What is written of a record behind its name and before its address. -/
def recordHead : Bytes := [0, 1, 0, 1, 0, 0, 0, 60, 0, 4]

theorem answer_of_address {lib : Lib} {r : DNSRecord} {a b c d : UInt8}
    (parsed : lib.parseIP4 r.ip = some (a, b, c, d)) (qname : Bytes) :
    answer lib qname r = encode (labelsOf qname) ++ (recordHead ++ [a, b, c, d]) := by
  rw [answer, parsed, writeName_eq]
  simp only [List.append_assoc]
  rfl

theorem answer_length (lib : Lib) (qname : Bytes) (r : DNSRecord) :
    (answer lib qname r).length =
      (encode (labelsOf qname)).length + 10 + if (lib.parseIP4 r.ip).isSome then 4 else 0 := by
  rw [answer, writeName_eq]
  cases lib.parseIP4 r.ip with
  | none => simp [put16]
  | some address => simp [put16]

theorem get16_append (before after : Bytes) (i : Nat) :
    get16 (before ++ after) (before.length + i) = get16 after i := by
  have at_ : ∀ j, (before ++ after).getD (before.length + j) 0 = after.getD j 0 := by
    intro j
    rw [List.getD_eq_getElem?_getD, List.getD_eq_getElem?_getD,
      List.getElem?_append_right (Nat.le_add_right _ _), Nat.add_sub_cancel_left]
  rw [get16, get16, Nat.add_assoc, at_, at_]

theorem get16_put16 (n : Nat) (after : Bytes) : get16 (put16 n ++ after) 0 = n % 65536 := by
  have high : (put16 n ++ after).getD 0 0 = UInt8.ofNat (n / 256) := rfl
  have low : (put16 n ++ after).getD 1 0 = UInt8.ofNat n := rfl
  rw [get16, high, low, UInt8.toNat_ofNat', UInt8.toNat_ofNat']
  omega

theorem get16_recordHead (after : Bytes) :
    get16 (recordHead ++ after) 0 = 1 ∧ get16 (recordHead ++ after) 2 = 1 ∧
      get16 (recordHead ++ after) 8 = 4 := by
  simp [get16, recordHead]

/-- A written record is read back. -/
theorem readsRecord_written {labels : List Bytes} (short : Short labels) (a b c d : UInt8)
    (before after : Bytes) :
    ReadsRecord (before ++ ((encode labels ++ (recordHead ++ [a, b, c, d])) ++ after))
      before.length (aRecord labels (a, b, c, d))
      (before.length + (encode labels ++ (recordHead ++ [a, b, c, d])).length) := by
  have whole : before ++ ((encode labels ++ (recordHead ++ [a, b, c, d])) ++ after) =
      (before ++ encode labels) ++ (recordHead ++ ([a, b, c, d] ++ after)) := by
    simp only [List.append_assoc]
  have named : Decodes (before ++ ((encode labels ++ (recordHead ++ [a, b, c, d])) ++ after))
      before.length labels (before ++ encode labels).length := by
    rw [List.append_assoc (encode labels), List.length_append]
    exact decodes_encode short before _
  obtain ⟨isType, isClass, isLength⟩ := get16_recordHead ([a, b, c, d] ++ after)
  refine ⟨(before ++ encode labels).length, named, ?_, ?_, ?_, ?_, ?_, ?_⟩
  · rw [whole]
    exact (get16_append (before ++ encode labels) _ 0).trans isType
  · rw [whole]
    exact (get16_append (before ++ encode labels) _ 2).trans isClass
  · rw [whole]
    exact (get16_append (before ++ encode labels) _ 8).trans isLength
  · rw [whole, List.drop_append, List.drop_of_length_le (Nat.le_add_right _ _),
      Nat.add_sub_cancel_left]
    rfl
  · simp [aRecord, recordHead]
    omega
  · simp [recordHead]

theorem addresses_cons_some {lib : Lib} {r : DNSRecord} {address : UInt8 × UInt8 × UInt8 × UInt8}
    (parsed : lib.parseIP4 r.ip = some address) (records : List DNSRecord) :
    addresses lib (r :: records) = address :: addresses lib records :=
  List.filterMap_cons_some parsed

theorem addresses_cons_none {lib : Lib} {r : DNSRecord} (failed : lib.parseIP4 r.ip = none)
    (records : List DNSRecord) : addresses lib (r :: records) = addresses lib records :=
  List.filterMap_cons_none failed

section Written

variable {lib : Lib} {qname : Bytes} {records : List DNSRecord}

/-- Records that all have an address are read back in their order. -/
theorem readsRecords_written (short : Short (labelsOf qname))
    (all : ∀ r ∈ records, (lib.parseIP4 r.ip).isSome = true) (before : Bytes) :
    ReadsRecords (before ++ records.flatMap (answer lib qname)) before.length
      ((addresses lib records).map (aRecord (labelsOf qname)))
      (before ++ records.flatMap (answer lib qname)).length := by
  induction records generalizing before with
  | nil =>
      rw [List.flatMap_nil, List.append_nil]
      exact .nil _
  | cons r rest ih =>
      obtain ⟨⟨a, b, c, d⟩, parsed⟩ := Option.isSome_iff_exists.mp (all r List.mem_cons_self)
      have later := ih (fun other listed => all other (List.mem_cons_of_mem r listed))
        (before ++ answer lib qname r)
      have first := readsRecord_written short a b c d before (rest.flatMap (answer lib qname))
      rw [← answer_of_address parsed, ← List.length_append] at first
      rw [List.append_assoc] at later
      rw [addresses_cons_some parsed, List.map_cons, List.flatMap_cons]
      exact .cons first later

theorem answers_length :
    (records.flatMap (answer lib qname)).length =
      records.length * ((encode (labelsOf qname)).length + 10) +
        4 * (addresses lib records).length := by
  induction records with
  | nil => simp [addresses]
  | cons r rest ih =>
      rw [List.flatMap_cons, List.length_append, ih, answer_length, List.length_cons,
        Nat.add_one_mul rest.length]
      cases parsed : lib.parseIP4 r.ip with
      | none =>
          rw [addresses_cons_none parsed, Option.isSome_none, if_neg Bool.false_ne_true]
          omega
      | some address =>
          rw [addresses_cons_some parsed, Option.isSome_some, if_pos rfl, List.length_cons]
          omega

/-- Records of one name take at most the bytes that writing them would take, and one more
for each. -/
theorem ReadsRecords.stop_le {buf : Bytes} {off stop : Nat} {labels : List Bytes}
    {addrs : List (UInt8 × UInt8 × UInt8 × UInt8)}
    (reads : ReadsRecords buf off (addrs.map (aRecord labels)) stop) :
    stop ≤ off + addrs.length * ((encode labels).length + 15) := by
  induction addrs generalizing off with
  | nil =>
      cases reads
      exact Nat.le_add_right _ _
  | cons address rest ih =>
      obtain ⟨a, b, c, d⟩ := address
      cases reads with
      | cons first later =>
          obtain ⟨behind, named, _, _, _, _, isNext, _⟩ := first
          have bound := ih later
          have nameBound := named.next_le
          have four : (aRecord labels (a, b, c, d)).data.length = 4 := rfl
          have same : (aRecord labels (a, b, c, d)).labels = labels := rfl
          rw [four] at isNext
          rw [same] at nameBound
          rw [List.length_cons, Nat.succ_mul]
          omega

/-- The addresses are as many as the records exactly if every record has one. -/
theorem addresses_length_iff :
    (addresses lib records).length = records.length ↔
      ∀ r ∈ records, (lib.parseIP4 r.ip).isSome = true :=
  List.filterMap_length_eq_length

end Written

/-! ## Responses -/

/-- A response up to the end of its question. -/
def front (buf qname : Bytes) (off ancount : Nat) : Bytes :=
  header buf ancount ++ counts ++
    (writeName qname ++ put16 (get16 buf off) ++ put16 (get16 buf (off + 2)))

theorem front_length (buf qname : Bytes) (off ancount : Nat) :
    (front buf qname off ancount).length = 24 + (writeName qname).length := by
  simp only [front, header, counts, put16, List.length_append, List.length_cons, List.length_nil]
  omega

theorem responseTo_eq (lib : Lib) (srv : Server) (buf qname : Bytes) (off : Nat) :
    responseTo lib srv buf qname off =
      front buf qname off (recordsFor lib srv qname (get16 buf off)).length ++
        (recordsFor lib srv qname (get16 buf off)).flatMap (answer lib qname) := by
  simp only [responseTo, front, List.append_assoc]

/-- The count of the answers has sixteen bits. -/
theorem get16_ancount (buf qname rest : Bytes) (off ancount : Nat) :
    get16 (front buf qname off ancount ++ rest) 6 = ancount % 65536 := by
  have high : (front buf qname off ancount ++ rest).getD 6 0 = UInt8.ofNat (ancount / 256) := rfl
  have low : (front buf qname off ancount ++ rest).getD 7 0 = UInt8.ofNat ancount := rfl
  rw [get16, high, low, UInt8.toNat_ofNat', UInt8.toNat_ofNat']
  omega

/-- Of answers that match, the first one has the labels that were written. -/
theorem labels_of_answers {lib : Lib} {qname before : Bytes} {labels : List Bytes}
    {records : List DNSRecord} {stop : Nat} (short : Short (labelsOf qname))
    (some : addresses lib records ≠ [])
    (reads : ReadsRecords (before ++ records.flatMap (answer lib qname)) before.length
      ((addresses lib records).map (aRecord labels)) stop) : labels = labelsOf qname := by
  cases records with
  | nil => exact absurd rfl some
  | cons r rest =>
      have written : Decodes (before ++ (r :: rest).flatMap (answer lib qname)) before.length
          (labelsOf qname) (before.length + (encode (labelsOf qname)).length) := by
        rw [List.flatMap_cons, answer, writeName_eq]
        simp only [List.append_assoc]
        exact decodes_encode short before _
      cases listed : addresses lib (r :: rest) with
      | nil => exact absurd listed some
      | cons address others =>
          obtain ⟨a, b, c, d⟩ := address
          rw [listed] at reads
          cases reads with
          | cons first _ =>
              obtain ⟨_, named, _⟩ := first
              exact (named.unique written).1

/-- Records that were counted in sixteen bits take fewer bytes than more of them. -/
theorem eq_of_bytes {written read name : Nat} (counted : read = written % 65536)
    (bytes : written * (name + 10) + 4 * read ≤ read * (name + 15)) : read = written := by
  by_contra different
  have more : read + 65536 ≤ written := by omega
  have taken : (read + 65536) * (name + 10) ≤ written * (name + 10) := Nat.mul_le_mul_right _ more
  have small : read < 65536 := counted ▸ Nat.mod_lt _ (by decide)
  rw [Nat.add_mul] at taken
  have room : read * (name + 15) = read * (name + 10) + read * 5 := by
    rw [← Nat.mul_add]
  omega

/-- The answer section is as it should be exactly if the records are not too many to be
counted, every one of them has an IPv4 address, and, where there are any, no label of the
query has a dot in it. -/
theorem answer_section_iff {lib : Lib} {srv : Server} {fuel off : Nat} {buf qname : Bytes}
    {answered : Answered} {labels : List Bytes} {records : List DNSRecord}
    (accepted : handleQuery lib srv fuel buf = some (.ok answered))
    (read : readName fuel buf 12 = some (.ok (qname, off))) (asked : Decodes buf 12 labels off)
    (isA : get16 buf off = 1) (found : srv.zoneData.lookup (lib.toLower qname) = some records) :
    AnswersAt lib answered.resp (24 + (writeName qname).length) labels records ↔
      records.length < 65536 ∧ (∀ r ∈ records, (lib.parseIP4 r.ip).isSome = true) ∧
        (records ≠ [] → ∀ label ∈ labels, dot ∉ label) := by
  obtain ⟨qname', off', read', _, isResp⟩ := handleQuery_ok accepted
  obtain ⟨rfl, rfl⟩ : qname = qname' ∧ off = off' := by
    rw [read] at read'
    exact Prod.mk.inj (Except.ok.inj (Option.some.inj read'))
  obtain ⟨labels', decodes, pieces⟩ := decodes_of_readNameFrom read
  obtain rfl := (asked.unique decodes).1
  rw [List.nil_append] at pieces
  have short : Short (labelsOf qname) := pieces ▸ asked.short.flatMap_labelsOf
  have isRecords : recordsFor lib srv qname (get16 buf off) = records := by
    rw [recordsFor, if_pos isA, found]
    rfl
  rw [isResp, responseTo_eq, isRecords, ← front_length buf qname off records.length, AnswersAt,
    get16_ancount]
  constructor
  · rintro ⟨counted, reads⟩
    have bytes := reads.stop_le
    rw [List.length_append, answers_length, Nat.add_le_add_iff_left] at bytes
    by_cases none : addresses lib records = []
    · -- nothing is read, so nothing was written
      rw [none, List.length_nil, Nat.zero_mul, Nat.mul_zero, Nat.add_zero, Nat.le_zero,
        Nat.mul_eq_zero] at bytes
      have empty : records = [] :=
        List.length_eq_zero_iff.mp (bytes.resolve_right (Nat.succ_ne_zero _))
      subst empty
      exact ⟨by decide, fun r listed => absurd listed List.not_mem_nil, fun given => absurd rfl given⟩
    · have same := labels_of_answers short none reads
      rw [same] at bytes
      have all := eq_of_bytes counted bytes
      refine ⟨?_, addresses_length_iff.mp all, fun _ => ?_⟩
      · rw [← all, counted]
        exact Nat.mod_lt _ (by decide)
      · exact (flatMap_labelsOf_iff asked.short).mp (pieces ▸ same.symm)
  · rintro ⟨few, all, plain⟩
    have counted := addresses_length_iff.mpr all
    refine ⟨by rw [counted, Nat.mod_eq_of_lt few], ?_⟩
    by_cases none : records = []
    · subst none
      rw [List.flatMap_nil, List.append_nil]
      exact .nil _
    · have same := (flatMap_labelsOf_iff asked.short).mpr (plain none)
      rw [← pieces] at same
      rw [← same]
      exact readsRecords_written short all _

theorem answer_section_for_name :
    ∃ answered, handleQuery plainLib oneName 2 queryA = some (.ok answered) ∧
      AnswersAt plainLib answered.resp 27 [[97]] [⟨⟨"a.p", "p", "a"⟩, "10.0.0.1"⟩] := by
  have accepted := queryA_accepted
  have first : item queryA 12 = .label [97] := by decide
  have second : item queryA 14 = .root := by decide
  have read : readName 2 queryA 12 = some (.ok ([97], 15)) := by decide
  have asked : Decodes queryA 12 [[97]] 15 := .label first (.root second)
  have found : oneName.zoneData.lookup (plainLib.toLower [97]) =
      some [⟨⟨"a.p", "p", "a"⟩, "10.0.0.1"⟩] := by decide
  exact ⟨_, accepted, (answer_section_iff accepted read asked (by decide) found).mpr
    ⟨by decide, by decide, by decide⟩⟩

/-- The zone has an address of IPv6 for the name `a`. -/
def sixName : Server := ⟨AList.singleton [97] [⟨⟨"a.p", "p", "a"⟩, "2001:db8::1"⟩]⟩

/-- The header counts a record that breaks off in front of its address. -/
theorem answer_section_for_six :
    ∃ answered, handleQuery plainLib sixName 2 queryA = some (.ok answered) ∧
      answered.resp = [0, 7, 0x81, 0x80, 0, 1, 0, 1, 0, 0, 0, 0, 0, 1, 0, 0, 0, 0, 0, 0,
        1, 97, 0, 0, 1, 0, 1, 1, 97, 0, 0, 1, 0, 1, 0, 0, 0, 60, 0, 4] ∧
      ¬AnswersAt plainLib answered.resp 27 [[97]] [⟨⟨"a.p", "p", "a"⟩, "2001:db8::1"⟩] := by
  refine ⟨⟨_, [0, 7, 0x81, 0x80, 0, 1, 0, 0, 0, 0, 0, 0, 1, 97, 0, 0, 1, 0, 1]⟩,
    by decide +kernel, rfl, ?_⟩
  rintro ⟨counted, _⟩
  revert counted
  decide

/-! ## The code for an unknown name -/

/-- The RCODE of a response. -/
def rcode (resp : Bytes) : Nat := (resp.getD 3 0).toNat % 16

/-- There is an entry for the name, and an address is asked for. -/
def Answerable (lib : Lib) (srv : Server) (qname : Bytes) (qtype : Nat) : Prop :=
  (srv.zoneData.lookup (lib.toLower qname)).isSome = true ∧ qtype = 1

instance (lib : Lib) (srv : Server) (qname : Bytes) (qtype : Nat) :
    Decidable (Answerable lib srv qname qtype) :=
  inferInstanceAs (Decidable (_ ∧ _))

theorem rcode_responseTo (lib : Lib) (srv : Server) (buf qname : Bytes) (off : Nat) :
    rcode (responseTo lib srv buf qname off) = 0 := by
  have flags : (responseTo lib srv buf qname off).getD 3 0 = 0x80 := rfl
  rw [rcode, flags]
  rfl

/-- The code is always that of success, so that it is right exactly for the questions that
can be answered. -/
theorem rcode_iff {lib : Lib} {srv : Server} {fuel : Nat} {buf : Bytes} {answered : Answered}
    (accepted : handleQuery lib srv fuel buf = some (.ok answered)) :
    ∃ qname off, readName fuel buf 12 = some (.ok (qname, off)) ∧
      (rcode answered.resp = (if Answerable lib srv qname (get16 buf off) then 0 else 3) ↔
        Answerable lib srv qname (get16 buf off)) := by
  obtain ⟨qname, off, read, _, isResp⟩ := handleQuery_ok accepted
  refine ⟨qname, off, read, ?_⟩
  rw [isResp, rcode_responseTo]
  by_cases answerable : Answerable lib srv qname (get16 buf off)
  · rw [if_pos answerable]
    exact iff_of_true rfl answerable
  · rw [if_neg answerable]
    exact iff_of_false (by decide) answerable

theorem rcode_for_name :
    ∃ answered qname off, handleQuery plainLib oneName 2 queryA = some (.ok answered) ∧
      readName 2 queryA 12 = some (.ok (qname, off)) ∧
        (rcode answered.resp = (if Answerable plainLib oneName qname (get16 queryA off) then 0 else 3) ↔
          Answerable plainLib oneName qname (get16 queryA off)) := by
  have accepted := queryA_accepted
  obtain ⟨qname, off, read, right⟩ := rcode_iff accepted
  exact ⟨_, qname, off, accepted, read, right⟩

/-- A query for the address of `b`, which the zone does not have. -/
def queryB : Bytes := queryOf [1, 98, 0, 0, 1, 0, 1]

/-- The unknown name is answered with the code of success; the code for an unknown name is
left in the buffer of the query. -/
theorem rcode_for_unknown :
    ∃ answered, handleQuery plainLib oneName 2 queryB = some (.ok answered) ∧
      ¬Answerable plainLib oneName [98] 1 ∧ rcode answered.resp = 0 ∧ rcode answered.buf = 3 := by
  refine ⟨⟨[0, 7, 0x81, 0x80, 0, 1, 0, 0, 0, 0, 0, 0, 0, 1, 0, 0, 0, 0, 0, 0, 1, 98, 0, 0, 1, 0, 1],
    [0, 7, 0x81, 0x83, 0, 1, 0, 0, 0, 0, 0, 0, 1, 98, 0, 0, 1, 0, 1]⟩,
    by decide +kernel, by decide +kernel, by decide, by decide⟩

end MiniCloud.Dns
