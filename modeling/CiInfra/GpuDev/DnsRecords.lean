import Mathlib.Tactic.Tauto
import Mathlib.Data.Rat.Defs

/-!
# The name of a reservation in the hosted zone

Allocating a reservation creates two record sets in one batch: an alias of the load balancer, and a
text with a port. Cleaning up the pod deletes two record sets in one batch. Does the deletion undo
the creation?
-/

namespace CiInfra.GpuDev.DnsRecords

/-! ### The hosted zone -/

inductive RecordType
  | a | aaaa | caa | cname | ds | https | mx | naptr | ns | ptr | soa | spf | srv | sshfp | svcb
  | tlsa | txt
  deriving DecidableEq

def RecordType.all : List RecordType :=
  [.a, .aaaa, .caa, .cname, .ds, .https, .mx, .naptr, .ns, .ptr, .soa, .spf, .srv, .sshfp, .svcb,
    .tlsa, .txt]

theorem RecordType.mem_all (type : RecordType) : type ∈ all := by
  cases type <;> decide

/-- Two record sets of one name exclude each other if they are of one type, or if one is an
alias. -/
def RecordType.excludes (s t : RecordType) : Bool :=
  s = t || s = .cname || t = .cname

theorem RecordType.excludes_iff {s t : RecordType} :
    s.excludes t = true ↔ s = t ∨ s = .cname ∨ t = .cname := by
  simp [excludes, or_assoc]

/-- What a record set says. -/
structure RecordData where
  ttl : ℕ
  values : List String
  deriving DecidableEq

structure RecordSet where
  name : String
  type : RecordType
  data : RecordData
  deriving DecidableEq

/-- The record sets of a zone, by name and type. -/
abbrev Zone := String → RecordType → Option RecordData

/-- The zone with other data for one name and type. -/
def Zone.set (zone : Zone) (name : String) (type : RecordType) (data : Option RecordData) : Zone :=
  fun n t => if n = name ∧ t = type then data else zone n t

inductive Change
  | create (recordSet : RecordSet)
  | delete (recordSet : RecordSet)
  deriving DecidableEq

/-- A record set can be created if the zone has none that it excludes. -/
def Zone.accepts (zone : Zone) (r : RecordSet) : Bool :=
  RecordType.all.all fun t => zone r.name t = none || !t.excludes r.type

/-- One change; a deletion has to give the record set exactly. -/
def applyChange (zone : Zone) : Change → Option Zone
  | .create r => if zone.accepts r then some (zone.set r.name r.type (some r.data)) else none
  | .delete r =>
    if zone r.name r.type = some r.data then some (zone.set r.name r.type none) else none

/-- What comes of a call: it is answered, or it fails before or after it has been carried out. -/
inductive Transport
  | answered
  | failedBefore
  | failedAfter
  deriving DecidableEq

/-- `change_resource_record_sets`: whether it comes back without an error, and the zone. A batch
is carried out as a whole or not at all. -/
def changeResourceRecordSets (zone : Zone) (changes : List Change) (transport : Transport) :
    Bool × Zone :=
  match changes.foldlM applyChange zone with
  | none => (false, zone)
  | some zone' =>
    match transport with
    | .answered => (true, zone')
    | .failedBefore => (false, zone)
    | .failedAfter => (false, zone')

/-! ### The records of a reservation -/

/-- The environment of the functions. -/
structure Config where
  domainName : String
  hostedZoneId : String
  jupyterAlbDns : String
  deriving DecidableEq

variable (cfg : Config)

/-- `get_dns_enabled`. -/
def getDnsEnabled : Bool :=
  cfg.domainName ≠ "" && cfg.hostedZoneId ≠ ""

def fqdn (subdomain : String) : String :=
  subdomain ++ "." ++ cfg.domainName

/-- The name of the text that holds the port. -/
def portName (subdomain : String) : String :=
  "_port." ++ fqdn cfg subdomain

/-- A record set with one value, that lives for a minute. -/
def single (name : String) (type : RecordType) (value : String) : RecordSet :=
  ⟨name, type, ⟨60, [value]⟩⟩

def quoted (port : ℕ) : String :=
  "\"" ++ toString port ++ "\""

/-- The batch of `create_dns_record`. The target address is not used. -/
def creations (subdomain : String) (targetPort : ℕ) : List Change :=
  [.create (single (fqdn cfg subdomain) .cname cfg.jupyterAlbDns),
    .create (single (portName cfg subdomain) .txt (quoted targetPort))]

/-- The batch of `delete_dns_record`. -/
def deletions (subdomain targetIp : String) (targetPort : ℕ) : List Change :=
  [.delete (single (fqdn cfg subdomain) .a targetIp),
    .delete (single (portName cfg subdomain) .txt (quoted targetPort))]

/-- `create_dns_record`. -/
def createDnsRecord (zone : Zone) (subdomain _targetIp : String) (targetPort : ℕ)
    (transport : Transport) : Bool × Zone :=
  if !getDnsEnabled cfg then (true, zone)
  else if cfg.jupyterAlbDns = "" then (false, zone)
  else changeResourceRecordSets zone (creations cfg subdomain targetPort) transport

/-- `delete_dns_record`. -/
def deleteDnsRecord (zone : Zone) (subdomain targetIp : String) (targetPort : ℕ)
    (transport : Transport) : Bool × Zone :=
  if !getDnsEnabled cfg then (true, zone)
  else changeResourceRecordSets zone (deletions cfg subdomain targetIp targetPort) transport

/-- What a reservation says of its name. -/
structure Reservation where
  domainName : Option String
  nodeIp : Option String
  nodePort : Option ℕ
  deriving DecidableEq

/-- The part of `allocate_gpu_resources` that creates the records for a name: the name, if it is to
be used, and the zone. It is also the part of its retries. -/
def createDnsCname (zone : Zone) (dn : String) (transport : Transport) : Option String × Zone :=
  let created := createDnsRecord cfg zone dn "" 0 transport
  (if created.1 then some dn else none, created.2)

/-- The part of `cleanup_pod` that deletes the records: the success, where there is a deletion, and
the zone. -/
def cleanupDns (zone : Zone) (reservation : Reservation) (transport : Transport) :
    Option Bool × Zone :=
  match getDnsEnabled cfg, reservation with
  | true, ⟨some domainName, some nodeIp, some nodePort⟩ =>
    if domainName ≠ "" ∧ nodeIp ≠ "" ∧ nodePort ≠ 0 then
      let deleted := deleteDnsRecord cfg zone domainName nodeIp nodePort transport
      (some deleted.1, deleted.2)
    else (none, zone)
  | _, _ => (none, zone)

/-- A reservation for which there are both a creation and, later, a deletion. -/
structure Recorded where
  subdomain : String
  nodeIp : String
  nodePort : ℕ
  enabled : getDnsEnabled cfg = true
  subdomain_ne : subdomain ≠ ""
  nodeIp_ne : nodeIp ≠ ""
  nodePort_ne : nodePort ≠ 0

def Recorded.reservation {cfg : Config} (x : Recorded cfg) : Reservation :=
  ⟨some x.subdomain, some x.nodeIp, some x.nodePort⟩

/-- The deletion undoes the creation: if both succeed the zone is what it was, and the deletion
succeeds, where it is answered, if the creation has. -/
def IsUndone (zone : Zone) (x : Recorded cfg) (transport : Transport) : Prop :=
  let created := createDnsCname cfg zone x.subdomain transport
  let deleted := cleanupDns cfg created.2 x.reservation .answered
  created.1 = some x.subdomain → deleted.1 = some true ∧ deleted.2 = zone

/-- The records cannot be created: the load balancer is not configured, the call does not come
back, or the zone has another record set at the name, or a text or an alias at the one for the
port. -/
def IsRefused (zone : Zone) (x : Recorded cfg) (transport : Transport) : Prop :=
  cfg.jupyterAlbDns = "" ∨ transport ≠ .answered ∨ (∃ t, zone (fqdn cfg x.subdomain) t ≠ none) ∨
    zone (portName cfg x.subdomain) .txt ≠ none ∨ zone (portName cfg x.subdomain) .cname ≠ none

variable {cfg} {zone zone' : Zone} {r : RecordSet} {x : Recorded cfg} {transport : Transport}

theorem Zone.accepts_iff :
    zone.accepts r = true ↔ ∀ t, t.excludes r.type = true → zone r.name t = none := by
  simp only [accepts, List.all_eq_true, Bool.or_eq_true, decide_eq_true_eq, Bool.not_eq_true']
  constructor
  · intro h t ht
    rcases h t t.mem_all with hnone | hfalse
    · exact hnone
    · rw [ht] at hfalse
      cases hfalse
  · intro h t _
    cases ht : t.excludes r.type with
    | false => exact Or.inr rfl
    | true => exact Or.inl (h t ht)

/-- An alias can be created where there is no record set of its name. -/
theorem Zone.accepts_cname {name value : String} :
    zone.accepts (single name .cname value) = true ↔ ∀ t, zone name t = none := by
  rw [accepts_iff]
  exact forall_congr' fun t =>
    ⟨fun h => h (RecordType.excludes_iff.mpr (Or.inr (Or.inr rfl))), fun h _ => h⟩

theorem Zone.accepts_txt {name value : String} :
    zone.accepts (single name .txt value) = true ↔
      zone name .txt = none ∧ zone name .cname = none := by
  rw [accepts_iff]
  constructor
  · exact fun h => ⟨h .txt rfl, h .cname rfl⟩
  · rintro ⟨htxt, hcname⟩ t ht
    rcases RecordType.excludes_iff.mp ht with rfl | rfl | hfalse
    · exact htxt
    · exact hcname
    · cases hfalse

theorem Zone.set_of_ne {name n : String} (h : n ≠ name) (type : RecordType)
    (data : Option RecordData) : zone.set name type data n = zone n := by
  funext t
  rw [set, if_neg fun hn => h hn.1]

theorem portName_ne (subdomain : String) : portName cfg subdomain ≠ fqdn cfg subdomain := by
  intro h
  have hlength := congrArg String.length h
  rw [portName, String.length_append] at hlength
  have hpos : "_port.".length = 6 := rfl
  omega

/-- Whether a record set can be created depends only on those of its name. -/
theorem Zone.accepts_congr (h : zone' r.name = zone r.name) : zone'.accepts r = zone.accepts r := by
  rw [accepts, accepts, h]

/-- The zone with both records. -/
def Zone.withRecords (zone : Zone) (cfg : Config) (subdomain : String) (targetPort : ℕ) : Zone :=
  (zone.set (fqdn cfg subdomain) .cname (some ⟨60, [cfg.jupyterAlbDns]⟩)).set
    (portName cfg subdomain) .txt (some ⟨60, [quoted targetPort]⟩)

/-- The batch of a creation is carried out if both records can be created. -/
theorem foldlM_creations (zone : Zone) (subdomain : String) (targetPort : ℕ) :
    (creations cfg subdomain targetPort).foldlM applyChange zone =
      if zone.accepts (single (fqdn cfg subdomain) .cname cfg.jupyterAlbDns) &&
          zone.accepts (single (portName cfg subdomain) .txt (quoted targetPort)) then
        some (zone.withRecords cfg subdomain targetPort)
      else none := by
  have hsecond : (zone.set (fqdn cfg subdomain) .cname (some ⟨60, [cfg.jupyterAlbDns]⟩)).accepts
      (single (portName cfg subdomain) .txt (quoted targetPort)) =
      zone.accepts (single (portName cfg subdomain) .txt (quoted targetPort)) :=
    Zone.accepts_congr (Zone.set_of_ne (portName_ne subdomain) _ _)
  rw [creations, List.foldlM_cons, applyChange]
  cases zone.accepts (single (fqdn cfg subdomain) .cname cfg.jupyterAlbDns) with
  | false => rfl
  | true =>
    rw [← hsecond, Bool.true_and, if_pos rfl]
    change Option.bind (ite _ _ _) some = _
    rw [Option.bind_fun_some]
    rfl

/-- A call succeeds exactly if its batch can be carried out, and it is answered. -/
theorem changeResourceRecordSets_fst (zone : Zone) (changes : List Change)
    (transport : Transport) :
    (changeResourceRecordSets zone changes transport).1 = true ↔
      transport = .answered ∧ (changes.foldlM applyChange zone).isSome = true := by
  rw [changeResourceRecordSets]
  cases changes.foldlM applyChange zone with
  | none => simp
  | some zone' => cases transport <;> simp

theorem createDnsRecord_fst (zone : Zone) (x : Recorded cfg) (targetIp : String) (targetPort : ℕ)
    (transport : Transport) :
    (createDnsRecord cfg zone x.subdomain targetIp targetPort transport).1 = true ↔
      ¬ IsRefused cfg zone x transport := by
  rw [createDnsRecord, x.enabled, Bool.not_true, if_neg Bool.false_ne_true]
  by_cases halb : cfg.jupyterAlbDns = ""
  · rw [if_pos halb]
    exact iff_of_false Bool.false_ne_true (not_not_intro (Or.inl halb))
  · rw [if_neg halb, changeResourceRecordSets_fst, foldlM_creations, Option.isSome_ite,
      Bool.and_eq_true, Zone.accepts_cname, Zone.accepts_txt]
    unfold IsRefused
    push Not
    exact ⟨fun h => ⟨halb, h⟩, fun h => h.2⟩

/-- The creation succeeds exactly if the records are not refused. -/
theorem createDnsCname_fst (zone : Zone) (x : Recorded cfg) (transport : Transport) :
    (createDnsCname cfg zone x.subdomain transport).1 = some x.subdomain ↔
      ¬ IsRefused cfg zone x transport := by
  rw [← createDnsRecord_fst zone x "" 0, createDnsCname]
  split_ifs with h
  · exact iff_of_true rfl h
  · exact iff_of_false (by simp) h

/-- A record set that has been created alone at its name is not an address, so that the deletion of
an address there is refused, and with it the whole batch. -/
theorem foldlM_deletions (zone : Zone) (subdomain targetIp : String) (targetPort : ℕ)
    (h : zone (fqdn cfg subdomain) .a = none) :
    (deletions cfg subdomain targetIp targetPort).foldlM applyChange zone = none := by
  have hfirst : applyChange zone (.delete (single (fqdn cfg subdomain) .a targetIp)) = none := by
    rw [applyChange, single, h, if_neg (Option.some_ne_none _).symm]
  rw [deletions, List.foldlM_cons, hfirst]
  rfl

/-- What has been created is an alias, and no address of its name. -/
theorem createDnsCname_snd (h : ¬ IsRefused cfg zone x transport) :
    (createDnsCname cfg zone x.subdomain transport).2 (fqdn cfg x.subdomain) .a = none := by
  unfold IsRefused at h
  push Not at h
  obtain ⟨halb, rfl, hnone, htxt, hcname⟩ := h
  have hbatch : (creations cfg x.subdomain 0).foldlM applyChange zone =
      some (zone.withRecords cfg x.subdomain 0) := by
    rw [foldlM_creations, Zone.accepts_cname.mpr hnone, Zone.accepts_txt.mpr ⟨htxt, hcname⟩]
    rfl
  have hzone : (createDnsCname cfg zone x.subdomain .answered).2 =
      zone.withRecords cfg x.subdomain 0 := by
    simp only [createDnsCname, createDnsRecord, x.enabled, halb, changeResourceRecordSets, hbatch,
      Bool.not_true, Bool.false_eq_true, if_false]
  rw [hzone, Zone.withRecords, Zone.set_of_ne (portName_ne x.subdomain).symm, Zone.set,
    if_neg (by simp), hnone]

/-- The deletion of the reservation's address fails if there is none. -/
theorem cleanupDns_fst (h : zone (fqdn cfg x.subdomain) .a = none) :
    (cleanupDns cfg zone x.reservation transport).1 = some false := by
  simp only [cleanupDns, Recorded.reservation, x.enabled]
  rw [if_pos ⟨x.subdomain_ne, x.nodeIp_ne, x.nodePort_ne⟩]
  simp only [deleteDnsRecord, x.enabled, changeResourceRecordSets, foldlM_deletions zone _ _ _ h,
    Bool.not_true, Bool.false_eq_true, if_false]

/-- The deletion undoes the creation exactly if nothing has been created. -/
theorem isUndone_iff (cfg : Config) (zone : Zone) (x : Recorded cfg) (transport : Transport) :
    IsUndone cfg zone x transport ↔ IsRefused cfg zone x transport := by
  constructor
  · intro h
    by_contra hrefused
    obtain ⟨hdeleted, -⟩ := h ((createDnsCname_fst zone x transport).mpr hrefused)
    rw [cleanupDns_fst (createDnsCname_snd hrefused)] at hdeleted
    cases hdeleted
  · intro hrefused hcreated
    exact absurd hrefused ((createDnsCname_fst zone x transport).mp hcreated)

/-- In an empty zone the records are created, and stay. -/
theorem not_isUndone : ¬ ∀ (cfg : Config) (zone : Zone) (x : Recorded cfg) (transport : Transport),
    IsUndone cfg zone x transport := by
  intro h
  have hundone := h ⟨"devservers.io", "Z0123", "alb.amazonaws.com"⟩ (fun _ _ => none)
    ⟨"clever-fox", "10.0.0.7", 30123, by decide, by decide, by decide, by decide⟩ .answered
  have hcreated := (hundone (by decide)).1
  exact absurd hcreated (by decide)

end CiInfra.GpuDev.DnsRecords
