import Containment.Client.Run
import Containment.Proofs.JsonText

/-!
# What is written on the wire

A value is written as the text of a tree, and a tree is told from its text. So it is enough to show
that decoding undoes encoding (`LawfulWired`). A record is read back if its fields fit its rules
(`Fits`). A tag in front of them adds that the whole tree has to be sound before it is looked at,
which a tree that can be told from its text is. In the end the server dispatches the registration
that a client was asked for (`written_is_read`).
-/

namespace Containment

namespace Wire

open Json

@[simp]
theorem ok_bind {α β : Type} (a : α) (f : α → Except Fault β) : (Except.ok a >>= f) = f a := rfl

@[simp]
theorem map_ok {α β : Type} (a : α) (f : α → β) :
    f <$> (Except.ok a : Except Fault α) = .ok (f a) := rfl

/-! ## Records -/

/-- The fields are what the rules ask for, each of them once and with a value that passes. -/
structure Fits (rules : List FieldRule) (fields : Found) : Prop where
  checked : ∀ field ∈ fields, ∃ rule,
    (rules.find? fun rule => rule.name == field.1) = some rule ∧ rule.check field.2 = .ok ()
  nodup : (fields.map Prod.fst).Nodup
  present : ∀ rule ∈ rules, rule.isOptional = true ∨ rule.name ∈ fields.map Prod.fst

theorem isSome_lookup {found : Found} {name : String} :
    (found.lookup name).isSome = true ↔ name ∈ found.map Prod.fst := by
  simp [List.lookup_isSome_iff]

theorem takeFields_ofList {rules : List FieldRule} {found fields : Found}
    (h : Fits rules (found.reverse ++ fields)) :
    takeFields rules found (.ofList fields) = .ok (fields.reverse ++ found) := by
  induction fields generalizing found with
  | nil =>
    have hall : (rules.all fun rule =>
        rule.isOptional || (found.lookup rule.name).isSome) = true := by
      refine List.all_eq_true.2 fun rule hrule => ?_
      rw [Bool.or_eq_true, isSome_lookup]
      simpa using h.present rule hrule
    rw [Fields.ofList, takeFields, if_pos hall]
    rfl
  | cons field rest ih =>
    obtain ⟨key, v⟩ := field
    obtain ⟨rule, hrule, hcheck⟩ := h.checked (key, v) (by simp)
    have hnew : ¬ (found.lookup key).isSome = true := by
      have hnodup := h.nodup
      rw [List.map_append, List.nodup_append] at hnodup
      rw [isSome_lookup]
      intro hmem
      refine hnodup.2.2 key ?_ key (by simp) rfl
      rwa [List.map_reverse, List.mem_reverse]
    have hrest : takeFields rules ((key, v) :: found) (.ofList rest) =
        .ok (rest.reverse ++ (key, v) :: found) := ih (by simpa using h)
    rw [Fields.ofList, takeFields, hrule]
    simp only [if_neg hnew, hcheck]
    rw [List.reverse_cons, List.append_assoc, List.singleton_append]
    exact hrest

theorem takeRecord_record {rules : List FieldRule} {fields : Found} (h : Fits rules fields) :
    takeRecord rules (.record fields) = .ok fields.reverse := by
  have htake : takeFields rules [] (.ofList fields) = .ok (fields.reverse ++ []) :=
    takeFields_ofList h
  rw [List.append_nil] at htake
  exact htake

/-! ## Values that are read back -/

/-- Whatever is written can be told from its text, and is read back as the same value. -/
class LawfulWired (α : Type) [Wired α] : Prop where
  isExact_encode : ∀ a : α, (Wired.encode a).IsExact
  decode_encode : ∀ (reading : Reading) (a : α), Wired.decode reading (Wired.encode a) = .ok a

attribute [simp] LawfulWired.isExact_encode LawfulWired.decode_encode

section

variable {α : Type} [Wired α] (reading : Reading) (name : String) (isOptional : Bool)

@[simp]
theorem FieldRule.name_of : (FieldRule.of α reading name isOptional).name = name := rfl

variable [LawfulWired α]

@[simp]
theorem FieldRule.check_of (a : α) :
    (FieldRule.of α reading name isOptional).check (Wired.encode a) = .ok () := by
  simp [FieldRule.of, Except.map]

theorem fits_single (a : α) :
    Fits [.of α reading name isOptional] [(name, Wired.encode a)] := by
  constructor <;> simp

end

theorem LawfulWired.read_write {α : Type} [Wired α] [LawfulWired α] (a : α) :
    read (write a) = .ok a := by
  rw [read, write, Document.read_compact (isExact_encode a)]
  simp only [decode_encode]
  rfl

/-! ## Values -/

instance : LawfulWired Bool where
  isExact_encode _ := trivial
  decode_encode _ _ := rfl

instance : LawfulWired String where
  isExact_encode _ := rfl
  decode_encode _ _ := rfl

theorem decodeNat_encodeNat {n bound : Nat} (h : n < bound) :
    decodeNat bound (encodeNat n) = .ok n := by
  rw [encodeNat, decodeNat, if_pos h]

instance : LawfulWired UInt64 where
  isExact_encode n := n.toNat_lt
  decode_encode _ n := by
    show (decodeNat UInt64.size (encodeNat n.toNat)).map UInt64.ofNat = _
    rw [decodeNat_encodeNat n.toNat_lt]
    simp [Except.map]

instance : LawfulWired Pid where
  isExact_encode pid := Nat.lt_trans pid.raw.toNat_lt (by decide)
  decode_encode _ pid := by
    show (decodeNat UInt32.size (encodeNat pid.raw.toNat)).map (fun n => Pid.mk (.ofNat n)) = _
    rw [decodeNat_encodeNat pid.raw.toNat_lt]
    simp [Except.map]

instance : LawfulWired FileId where
  isExact_encode file := file.raw.toNat_lt
  decode_encode _ file := by
    show (decodeNat UInt64.size (encodeNat file.raw.toNat)).map (fun n => FileId.mk (.ofNat n)) = _
    rw [decodeNat_encodeNat file.raw.toNat_lt]
    simp [Except.map]

instance : LawfulWired Policy where
  isExact_encode _ := rfl
  decode_encode _ policy := by
    show decodePolicy _ (.text (some policy.text)) = _
    rw [decodePolicy, Policy.ofText?_text]

instance {α : Type} [Wired α] [LawfulWired α] : LawfulWired (List α) where
  isExact_encode items := by
    refine Tree.isExact_list.2 fun t ht => ?_
    obtain ⟨a, -, rfl⟩ := List.mem_map.1 ht
    exact LawfulWired.isExact_encode a
  decode_encode reading items := by
    show decodeItems (Wired.decode reading) (.ofList (items.map Wired.encode)) = _
    induction items with
    | nil => rfl
    | cons a rest ih =>
      rw [List.map_cons, Items.ofList, decodeItems, LawfulWired.decode_encode, ih]
      rfl

/-! ## Records -/

theorem fits_summary (reading : Reading) (s : Summary) :
    Fits (summaryRules reading) [("root", Wired.encode s.root), ("origin", Wired.encode s.origin),
      ("policy", Wired.encode s.policy), ("live", Wired.encode s.live),
      ("members", Wired.encode s.members), ("files", Wired.encode s.files)] := by
  constructor <;> simp [summaryRules]

theorem fits_registration (reading : Reading) (pid : Pid) (origin : FileId) (policy : Policy) :
    Fits (registrationRules reading) [("pid", Wired.encode pid), ("origin", Wired.encode origin),
      ("policy", Wired.encode policy)] := by
  constructor <;> simp [registrationRules]

theorem fits_pair (reading : Reading) {first second : String} (h : first ≠ second) (a b : Bool) :
    Fits [.of Bool reading first, .of Bool reading second]
      [(first, Wired.encode a), (second, Wired.encode b)] := by
  constructor <;> simp [h]

instance : LawfulWired Summary where
  isExact_encode s := Tree.isExact_record.2 (by simp)
  decode_encode reading s := by
    unfold instWiredSummary
    simp [takeRecord_record (fits_summary reading s), Found.get, List.lookup_cons]

instance : LawfulWired Registration where
  isExact_encode r := Tree.isExact_record.2 (by simp)
  decode_encode reading r := by
    unfold instWiredRegistration
    simp [takeRecord_record (fits_registration reading r.pid r.origin r.policy), Found.get,
      Found.getD, List.lookup_cons]

instance : LawfulWired Registered where
  isExact_encode r := Tree.isExact_record.2 (by simp)
  decode_encode reading r := by
    unfold instWiredRegistered
    simp [takeRecord_record (fits_single reading "root" false r.root), Found.get]

instance : LawfulWired Unregistered where
  isExact_encode u := Tree.isExact_record.2 (by simp)
  decode_encode reading u := by
    unfold instWiredUnregistered
    simp [takeRecord_record (fits_single reading "removed" false u.removed), Found.get]

instance : LawfulWired Terminated where
  isExact_encode t := Tree.isExact_record.2 (by simp)
  decode_encode reading t := by
    unfold instWiredTerminated
    simp [takeRecord_record (fits_single reading "pids" false t.pids), Found.get]

instance : LawfulWired WaitOrder where
  isExact_encode w := Tree.isExact_record.2 (by simp)
  decode_encode reading w := by
    unfold instWiredWaitOrder
    simp [takeRecord_record (fits_single reading "timeout_ms" true w.milliseconds), Found.getD]

instance : LawfulWired ExitStatus where
  isExact_encode e := Tree.isExact_record.2 (by simp)
  decode_encode reading e := by
    unfold instWiredExitStatus
    simp [takeRecord_record (fits_pair reading (by decide : "timed_out" ≠ "removed") _ _),
      Found.get, List.lookup_cons]

instance : LawfulWired Version where
  isExact_encode v := Tree.isExact_record.2 (by simp)
  decode_encode reading v := by
    unfold instWiredVersion
    simp [takeRecord_record (fits_single reading "version" false v.version), Found.get]

/-! ## Depth -/

class Flat (α : Type) [Wired α] : Prop where
  depth_encode : ∀ a : α, (Wired.encode a).depth = 0

attribute [simp] Flat.depth_encode

instance : Flat Bool := ⟨fun _ => rfl⟩

instance : Flat UInt64 := ⟨fun _ => rfl⟩

instance : Flat Pid := ⟨fun _ => rfl⟩

instance : Flat FileId := ⟨fun _ => rfl⟩

instance : Flat Policy := ⟨fun _ => rfl⟩

@[simp]
theorem depth_encode_list {α : Type} [Wired α] [Flat α] (items : List α) :
    (Wired.encode items).depth ≤ 1 := by
  have h : (Items.ofList (items.map Wired.encode)).depth ≤ 0 := by
    refine Items.depth_ofList fun t ht => ?_
    obtain ⟨a, -, rfl⟩ := List.mem_map.1 ht
    simp
  exact Nat.succ_le_succ h

/-! ## Tagged records -/

theorem fieldValues_ofList {key : String} {fields : Found} (h : key ∉ fields.map Prod.fst) :
    fieldValues key (.ofList fields) = [] := by
  induction fields with
  | nil => rfl
  | cons field rest ih =>
    rw [List.map_cons, List.mem_cons, not_or] at h
    obtain ⟨hne, hrest⟩ := h
    simp [Fields.ofList, fieldValues, Ne.symm hne, ih hrest]

theorem withoutField_ofList {key : String} {fields : Found} (h : key ∉ fields.map Prod.fst) :
    withoutField key (.ofList fields) = .ofList fields := by
  induction fields with
  | nil => rfl
  | cons field rest ih =>
    rw [List.map_cons, List.mem_cons, not_or] at h
    obtain ⟨hne, hrest⟩ := h
    simp [Fields.ofList, withoutField, Ne.symm hne, ih hrest]

/-- The fields are what the rules of the tag ask for, and the tag can be put in front of them. -/
structure Suits (rulesOf : String → Option (List FieldRule)) (tag : String) (fields : Found) :
    Prop where
  fits : ∃ rules, rulesOf tag = some rules ∧ Fits rules fields
  untagged : "type" ∉ fields.map Prod.fst
  exact : ∀ field ∈ fields, field.2.IsExact
  shallow : ∀ field ∈ fields, field.2.depth ≤ 1

theorem isExact_tagged {tag : String} {fields : Found} (h : ∀ field ∈ fields, field.2.IsExact) :
    (tagged tag fields).IsExact :=
  Tree.isExact_record.2 (List.forall_mem_cons.2 ⟨rfl, h⟩)

theorem takeWholeTagged_tagged {rulesOf : String → Option (List FieldRule)} {tag : String}
    {fields : Found} (h : Suits rulesOf tag fields) :
    takeWholeTagged rulesOf (tagged tag fields) = .ok (tag, fields.reverse) := by
  obtain ⟨rules, hrules, hfits⟩ := h.fits
  have hwhole : (tagged tag fields).isWhole = true :=
    Tree.isWhole_of_exact _ (isExact_tagged h.exact)
  have hdepth : (tagged tag fields).depth ≤ maxDepth := by
    have h1 : (Fields.ofList (("type", .string tag) :: fields)).depth ≤ 1 :=
      Fields.depth_ofList (List.forall_mem_cons.2 ⟨Nat.zero_le 1, h.shallow⟩)
    exact Nat.le_trans (Nat.succ_le_succ h1) (by decide)
  have htagged : takeTagged rulesOf (tagged tag fields) = .ok (tag, fields.reverse) := by
    have hrecord := takeRecord_record hfits
    rw [Tree.record] at hrecord
    simp [takeTagged, tagged, Tree.record, Tree.string, Fields.ofList, fieldValues, withoutField,
      fieldValues_ofList h.untagged, withoutField_ofList h.untagged, hrules, hrecord]
  rw [takeWholeTagged, hwhole, decide_eq_true hdepth, Bool.true_and, if_pos rfl, htagged]

section

variable {rulesOf : String → Option (List FieldRule)} {tag name : String}
variable {α : Type} [Wired α] [LawfulWired α] {a : α}

theorem suits_single (hrules : rulesOf tag = some [.of α .whole name]) (hname : name ≠ "type")
    (hdepth : (Wired.encode a).depth ≤ 1) : Suits rulesOf tag [(name, Wired.encode a)] where
  fits := ⟨_, hrules, fits_single .whole name false a⟩
  untagged := by simpa using hname.symm
  exact := by simp
  shallow := by simpa using hdepth

theorem takeWholeTagged_single (hrules : rulesOf tag = some [.of α .whole name])
    (hname : name ≠ "type") (hdepth : (Wired.encode a).depth ≤ 1) :
    takeWholeTagged rulesOf (tagged tag [(name, Wired.encode a)]) =
      .ok (tag, [(name, Wired.encode a)]) :=
  takeWholeTagged_tagged (suits_single hrules hname hdepth)

end

/-! ## Requests and responses -/

theorem suits_register (pid : Pid) (origin : FileId) (policy : Policy) :
    Suits requestRules "register_family" [("pid", Wired.encode pid),
      ("origin", Wired.encode origin), ("policy", Wired.encode policy)] where
  fits := ⟨_, rfl, fits_registration .whole pid origin policy⟩
  untagged := by simp
  exact := by simp
  shallow := by simp

theorem suits_wait (pid : Pid) (milliseconds : UInt64) :
    Suits requestRules "wait_for_exit"
      [("pid", Wired.encode pid), ("timeout_ms", Wired.encode milliseconds)] where
  fits := ⟨_, rfl, by constructor <;> simp⟩
  untagged := by simp
  exact := by simp
  shallow := by simp

theorem suits_waited (timedOut removed : Bool) :
    Suits responseRules "waited"
      [("timed_out", Wired.encode timedOut), ("removed", Wired.encode removed)] where
  fits := ⟨_, rfl, fits_pair .whole (by decide) timedOut removed⟩
  untagged := by simp
  exact := by simp
  shallow := by simp

instance : LawfulWired Request where
  isExact_encode request := by cases request <;> exact isExact_tagged (by simp)
  decode_encode _ request := by
    show decodeRequest (encodeRequest request) = .ok request
    cases request with
    | register pid origin policy =>
      rw [encodeRequest, decodeRequest, takeWholeTagged_tagged (suits_register pid origin policy)]
      simp [Found.get, Found.getD, List.lookup_cons]
    | wait pid milliseconds =>
      rw [encodeRequest, decodeRequest, takeWholeTagged_tagged (suits_wait pid milliseconds)]
      simp [Found.get, Found.getD, List.lookup_cons]
    | unregister pid | terminate pid | listMembers pid | listFiles pid =>
      simp [encodeRequest, decodeRequest, takeWholeTagged_single, requestRules, Found.get]

instance : LawfulWired Response where
  isExact_encode response := by cases response <;> exact isExact_tagged (by simp)
  decode_encode _ response := by
    show decodeResponse (encodeResponse response) = .ok response
    cases response with
    | waited timedOut removed =>
      rw [encodeResponse, decodeResponse, takeWholeTagged_tagged (suits_waited timedOut removed)]
      simp [Found.get, List.lookup_cons]
    | _ => simp [encodeResponse, decodeResponse, takeWholeTagged_single, responseRules, Found.get]

end Wire

/-! ## From the client to the server -/

namespace Client

open Management Wire

theorem readBody_post {α : Type} [Wired α] [LawfulWired α] (target : String) (body : α) :
    readBody (post target body) = .ok body := by
  have hjson : (some "application/json").any isJson = true := by decide
  simp [readBody, post, hjson, LawfulWired.read_write]

theorem path_families : Target.path "/families" = .ok "/families".toList := by
  have h : Target.pathIn? "/families".toList = some "/families".toList := by decide
  rw [Target.path, if_neg (by decide), if_neg (by decide), h]

theorem respond_registration (version : String) (r : Registration) :
    respond version (post "/families" r) =
      Management.dispatch (.register r.pid r.origin r.policy) := by
  have hhead : (isMethod "POST" && (some "application/json").all isHeaderValue) = true := by decide
  have hpath : (post "/families" r).path = .ok "/families".toList := by
    rw [HttpRequest.path, post, if_pos hhead, path_families]
  have hresource : Resource.ofPath? "/families".toList = some .families := by decide
  have hmethod : (post "/families" r).method = "POST" := rfl
  have hbody : (readBody (post "/families" r) : Except Nat Registration) = .ok r :=
    readBody_post _ r
  rw [respond, hpath]
  simp only [respondAt, hresource]
  simp [Resource.methods, hmethod, serve, register, hbody]

/-- What one side writes is what the other one reads. So a registration arrives with the pid, the
origin and the policy that the client was asked for, and this is what the server dispatches. -/
theorem written_is_read :
    (∀ request : Request, read (write request) = .ok request) ∧
      (∀ response : Response, read (write response) = .ok response) ∧
      (∀ s : Summary, read (write s) = .ok s) ∧
      (∀ r : Registration, read (write r) = .ok r) ∧
      (∀ r : Registered, read (write r) = .ok r) ∧
      (∀ u : Unregistered, read (write u) = .ok u) ∧
      (∀ t : Terminated, read (write t) = .ok t) ∧
      (∀ w : WaitOrder, read (write w) = .ok w) ∧
      (∀ e : ExitStatus, read (write e) = .ok e) ∧
      (∀ v : Version, read (write v) = .ok v) ∧
      (∀ (fs : Filesystem) (version : String) (pid : Pid) (file : FileId) (path : Option String)
        (policy : Policy), ∃ request,
          requestOf fs (.register pid (some file) path policy) = .ok request ∧
            readBody request = .ok (Registration.mk pid file policy) ∧
            respond version request = Management.dispatch (.register pid file policy)) ∧
      ∀ (fs : Filesystem) (version : String) (pid : Pid) (origin : Option FileId)
        (path : Option String) (policy : Policy),
        (requestOf fs (.register pid origin path policy)).map (respond version) =
          (originOf fs origin path).map fun file =>
            Management.dispatch (.register pid file policy) := by
  refine ⟨LawfulWired.read_write, LawfulWired.read_write, LawfulWired.read_write,
    LawfulWired.read_write, LawfulWired.read_write, LawfulWired.read_write, LawfulWired.read_write,
    LawfulWired.read_write, LawfulWired.read_write, LawfulWired.read_write, ?_, ?_⟩
  · intro fs version pid file path policy
    exact ⟨_, rfl, readBody_post _ _, respond_registration _ _⟩
  intro fs version pid origin path policy
  rw [requestOf]
  cases originOf fs origin path with
  | error e => rfl
  | ok file =>
    show Except.ok (respond version (post "/families" (Registration.mk pid file policy))) = _
    rw [respond_registration]
    rfl

end Client

end Containment
