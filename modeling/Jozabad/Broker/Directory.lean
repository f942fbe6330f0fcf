import Jozabad.Broker.Codec
import Jozabad.Broker.Registry
import Jozabad.Broker.Pairing

/-!
# The directory

A worker that asks for the directory is told who is registered, in which direction each
worker takes calls, and who is on a call. What the receiver makes of the answer is to be
the same list (`Lists`).

The number of entries is written in one byte, so that 256 entries and none look the same.
And an entry is split at its first `=`, although a name may have one. So the receiver gets
the directory right exactly if there are at most 255 workers and no name has a `=`
(`directory_fidelity`).
-/

namespace Jozabad
namespace Broker

open JozaMsg Reader

variable {b b' : JozaPoll} {msg reply : JozaMsg} {env : Env} {outs : List JozaMsg}
  {t : WorkersTable} {entries dir : List (CString × String)} {entry : CString × String}

/-- The directionality and the availability of a worker. -/
def status (iodir : IoDir) (role : Role) : String :=
  iodirName iodir ++ "," ++ if role = .ready then "AVAILABLE" else "BUSY"

/-- What the directory says of a worker. -/
def entryOf (w : Worker) : CString × String :=
  (w.address, status w.iodir w.role)

/-- **The directory of a table.** It has exactly one entry for each worker. -/
structure Lists (t : WorkersTable) (dir : List (CString × String)) : Prop where
  keys_nodup : (dir.map Prod.fst).Nodup
  mem_iff : ∀ e, e ∈ dir ↔ ∃ k w, t.get? k = some w ∧ entryOf w = e
  length : dir.length = t.size

/-! ### The hash table -/

theorem zhashInsert_of_not_mem {key : CString} {value : String} (h : key ∉ dir.map Prod.fst) :
    zhashInsert dir key value = dir ++ [(key, value)] := by
  have hno : ¬ (dir.any fun d => d.1 = key) = true := by
    rw [List.any_eq_true]
    rintro ⟨d, hd, hkey⟩
    exact h (List.mem_map.2 ⟨d, hd, by simpa using hkey⟩)
  rw [zhashInsert, if_neg hno]

theorem length_zhashInsert_le {key : CString} {value : String} :
    (zhashInsert dir key value).length ≤ dir.length + 1 := by
  rw [zhashInsert]
  split_ifs
  · exact Nat.le_succ _
  · rw [List.length_append, List.length_singleton]

theorem mem_zhashInsert {key : CString} {value : String}
    (h : entry ∈ zhashInsert dir key value) : entry ∈ dir ∨ entry = (key, value) := by
  rw [zhashInsert] at h
  split_ifs at h
  · exact .inl h
  · simpa using h

/-- Entries with pairwise different keys are inserted one by one. -/
theorem foldl_zhashInsert (h : ((dir ++ entries).map Prod.fst).Nodup) :
    entries.foldl (fun hash e => zhashInsert hash e.1 e.2) dir = dir ++ entries := by
  induction entries generalizing dir with
  | nil => rw [List.foldl_nil, List.append_nil]
  | cons e entries ih =>
    have hnew : e.1 ∉ dir.map Prod.fst := by
      intro hmem
      rw [List.map_append, List.nodup_append] at h
      exact h.2.2 e.1 hmem e.1 (by simp) rfl
    rw [List.foldl_cons, zhashInsert_of_not_mem hnew, ih (by simpa using h)]
    simp

theorem length_foldl_zhashInsert_le :
    (entries.foldl (fun hash e => zhashInsert hash e.1 e.2) dir).length ≤
      dir.length + entries.length := by
  induction entries generalizing dir with
  | nil => exact Nat.le_refl _
  | cons e entries ih =>
    rw [List.foldl_cons, List.length_cons]
    have hrest := @ih (zhashInsert dir e.1 e.2)
    have hinsert := @length_zhashInsert_le dir e.1 e.2
    omega

theorem mem_foldl_zhashInsert
    (h : entry ∈ entries.foldl (fun hash e => zhashInsert hash e.1 e.2) dir) :
    entry ∈ dir ∨ entry ∈ entries := by
  induction entries generalizing dir with
  | nil => exact .inl h
  | cons e entries ih =>
    obtain hinsert | hrest := ih h
    · obtain hold | rfl := mem_zhashInsert hinsert
      · exact .inl hold
      · exact .inr (List.mem_cons_self ..)
    · exact .inr (List.mem_cons_of_mem _ hrest)

/-- The names in the directory are those of the workers, each once. -/
theorem keys_nodup (h : Names t) : ((t.entries.map fun e => entryOf e.2).map Prod.fst).Nodup := by
  rw [List.map_map]
  refine t.nodupKeys.nodup.map_on fun e he e' he' haddr => ?_
  -- Two entries with the same name have the same key.
  have hk := h.address_unique e.1 e.2 e'.1 e'.2 (Table.get?_eq_some.2 he)
    (Table.get?_eq_some.2 he') haddr
  have hw : t.get? e.1 = some e'.2 := hk ▸ Table.get?_eq_some.2 he'
  rw [Table.get?_eq_some.2 he, Option.some.injEq] at hw
  exact Sigma.ext hk (heq_of_eq hw)

/-- **The directory that the broker makes** is that of the table. -/
theorem lists_createDirectory (h : Names t) : Lists t (workersTableCreateDirectory t) := by
  have hfold : workersTableCreateDirectory t =
      (t.entries.map fun e => entryOf e.2).foldl (fun hash e => zhashInsert hash e.1 e.2) [] := by
    rw [List.foldl_map]
    rfl
  rw [hfold, foldl_zhashInsert (by simpa using keys_nodup h), List.nil_append]
  refine ⟨keys_nodup h, fun e => ?_, by rw [List.length_map, Table.size]⟩
  simp only [List.mem_map, Table.get?_eq_some]
  constructor
  · rintro ⟨e', he', rfl⟩
    exact ⟨e'.1, e'.2, he', rfl⟩
  · rintro ⟨k, w, hw, rfl⟩
    exact ⟨⟨k, w⟩, hw, rfl⟩

/-- The order of the entries does not matter. -/
theorem Lists.perm (h : Lists t dir) (hperm : entries.Perm dir) : Lists t entries where
  keys_nodup := (hperm.map Prod.fst).nodup_iff.2 h.keys_nodup
  mem_iff e := hperm.mem_iff.trans (h.mem_iff e)
  length := hperm.length_eq.trans h.length

/-- A directory is that of every table whose workers look the same. -/
theorem Lists.congr {t' : WorkersTable} (h : Lists t dir) (hsize : t.size = t'.size)
    (hget : ∀ k, (t.get? k).map entryOf = (t'.get? k).map entryOf) : Lists t' dir := by
  refine ⟨h.keys_nodup, fun e => (h.mem_iff e).trans ?_, h.length.trans hsize⟩
  have hsome : ∀ {t : WorkersTable}, (∃ k w, t.get? k = some w ∧ entryOf w = e) ↔
      ∃ k, (t.get? k).map entryOf = some e := by
    intro t
    simp only [Option.map_eq_some_iff]
  rw [hsome, hsome]
  simp only [hget]

/-! ### A pair on the wire -/

/-- The bytes of a `key=value` pair. -/
def pairBytes (entry : CString × String) : List UInt8 :=
  entry.1.bytes ++ 61 :: textBytes entry.2

/-- What is received of a pair: it is split at its first `=`. -/
def received (entry : CString × String) : CString × String :=
  (.ofBytes ((pairBytes entry).takeWhile (· ≠ 61)),
    ofTextBytes ((pairBytes entry).dropWhile (· ≠ 61)).tail)

/-- The pair is a string without a NUL that is not too long, and its text is ASCII. -/
structure Fits (entry : CString × String) : Prop where
  length : (pairBytes entry).length < STRING_MAX
  nulFree : 0 ∉ textBytes entry.2
  ascii : ∀ c ∈ entry.2.toList, c.toNat < 256

theorem status_text (iodir : IoDir) (role : Role) : (textBytes (status iodir role)).length ≤ 31 ∧
    0 ∉ textBytes (status iodir role) ∧ ∀ c ∈ (status iodir role).toList, c.toNat < 256 := by
  have hascii : (status iodir role).toList.all (fun c => decide (c.toNat < 256)) = true := by
    cases iodir <;> cases role <;> decide
  refine ⟨?_, ?_, fun c hc => of_decide_eq_true (List.all_eq_true.1 hascii c hc)⟩
  · cases iodir <;> cases role <;> decide
  · cases iodir <;> cases role <;> decide

/-- The entry of a worker is not too long. -/
theorem fits_entryOf {w : Worker} (h : w.address.length ≤ NAME_LEN) : Fits (entryOf w) := by
  obtain ⟨hlength, hnul, hascii⟩ := status_text w.iodir w.role
  refine ⟨?_, hnul, hascii⟩
  rw [pairBytes, List.length_append, List.length_cons]
  simp only [CString.length, NAME_LEN, STRING_MAX, entryOf] at h ⊢
  omega

namespace Fits

variable (h : Fits entry)
include h

/-- The pair is one string. -/
theorem ofBytes_pairBytes : (CString.ofBytes (pairBytes entry)).bytes = pairBytes entry := by
  refine List.takeWhile_eq_self_iff.2 fun c hc => ?_
  have hnul : 0 ∉ pairBytes entry := by
    simp [pairBytes, entry.1.nulFree, h.nulFree]
  simpa using fun hzero : c = 0 => hnul (hzero ▸ hc)

theorem sWorkersWrite_eq : sWorkersWrite entry = putString (.ofBytes (pairBytes entry)) := by
  rw [sWorkersWrite, ← pairBytes, List.take_of_length_le (Nat.le_sub_one_of_lt h.length)]

/-- A pair always has a `=`. -/
theorem splitPair_eq : splitPair (.ofBytes (pairBytes entry)) = some (received entry) := by
  rw [splitPair, h.ofBytes_pairBytes, received]
  cases hdrop : (pairBytes entry).dropWhile (· ≠ 61) with
  | nil =>
    have hall := List.dropWhile_eq_nil_iff.1 hdrop 61 (by simp [pairBytes])
    simp at hall
  | cons c value => rfl

/-- A name without a `=` is received as it was. -/
theorem received_eq (hclean : 61 ∉ entry.1.bytes) : received entry = entry := by
  have hall : ∀ c ∈ entry.1.bytes, decide (c ≠ 61) = true := by
    intro c hc
    simpa using fun heq : c = 61 => hclean (heq ▸ hc)
  have htake : (pairBytes entry).takeWhile (· ≠ 61) = entry.1.bytes := by
    rw [pairBytes, List.takeWhile_append_of_pos hall]
    simp
  have hdrop : (pairBytes entry).dropWhile (· ≠ 61) = 61 :: textBytes entry.2 := by
    rw [pairBytes, List.dropWhile_append_of_pos hall]
    simp
  rw [received, htake, hdrop, List.tail_cons, CString.ofBytes_bytes,
    ofTextBytes_textBytes h.ascii]

end Fits

/-- No name is received with a `=`. -/
theorem received_clean : 61 ∉ (received entry).1.bytes := by
  intro hmem
  have htake := List.mem_takeWhile_imp ((List.takeWhile_prefix _).subset hmem)
  simp at htake

/-! ### The receiver -/

theorem reads_getString {s : CString} (h : s.length ≤ STRING_MAX) :
    getString.Reads (putString s) s := by
  have hread : getString.Reads (putNumber 1 s.length ++ s.bytes) (CString.ofBytes s.bytes) :=
    (reads_getNumber _ (Nat.lt_succ_of_le h)).bind (reads_getBytes _ s.bytes).map
  rwa [CString.ofBytes_bytes] at hread

/-- As many entries as are asked for are taken. -/
theorem reads_getWorkers (h : ∀ e ∈ entries, Fits e) :
    (getWorkers entries.length dir).Reads (entries.flatMap sWorkersWrite)
      ((entries.map received).foldl (fun hash e => zhashInsert hash e.1 e.2) dir) := by
  induction entries generalizing dir with
  | nil => exact .pure dir
  | cons e entries ih =>
    obtain ⟨he, hrest⟩ := List.forall_mem_cons.1 h
    rw [List.flatMap_cons, he.sWorkersWrite_eq]
    refine (reads_getString ?_).bind ?_
    · rw [CString.length, he.ofBytes_pairBytes]
      exact he.length.le
    · rw [he.splitPair_eq]
      exact ih hrest

/-- A number is written modulo 256 in one byte. -/
theorem reads_count (n : ℕ) :
    (getNumber RecvError.malformed 1).Reads (putNumber 1 n) (n % 256) := by
  have hmod : putNumber 1 n = putNumber 1 (n % 256) := by
    have hbyte : UInt8.ofNat n = UInt8.ofNat (n % 256) := UInt8.toNat_inj.1 (by simp)
    simp [putNumber, hbyte]
  rw [hmod]
  exact reads_getNumber _ (Nat.mod_lt n (by decide))

/-- What is received of `entries`: as many of them as the byte says, each split. -/
def receivedDirectory (entries : List (CString × String)) : List (CString × String) :=
  ((entries.take (entries.length % 256)).map received).foldl
    (fun hash e => zhashInsert hash e.1 e.2) []

theorem jozaMsgRecv_directory (address : Frame) (hid : reply.id = .directory)
    (h : ∀ e ∈ reply.workers, Fits e) :
    jozaMsgRecv address (jozaMsgSend reply) =
      .ok { address, id := .directory, workers := receivedDirectory reply.workers } := by
  set n := reply.workers.length with hn
  have htaken : ((reply.workers.take (n % 256)).length) = n % 256 := by
    rw [List.length_take, ← hn]
    exact min_eq_left (Nat.mod_le n 256)
  have hworkers := @reads_getWorkers _ []
    fun e he => h e (List.mem_of_mem_take (i := n % 256) he)
  rw [htaken] at hworkers
  have hmsg : (getMsg address []).Reads (putNumber 2 SIGNATURE ++ (putNumber 1 15 ++
      (putNumber 1 n ++ (reply.workers.take (n % 256)).flatMap sWorkersWrite)))
      { address, id := .directory, workers := receivedDirectory reply.workers } := by
    refine (reads_getNumber _ (by decide)).bind ?_
    refine (reads_getNumber _ (by decide)).bind ?_
    exact (reads_count n).bind hworkers.map
  -- The entries beyond the number that is written are left in the frame.
  have hon := hmsg ((reply.workers.drop (n % 256)).flatMap sWorkersWrite)
  simp only [List.append_assoc, ← List.flatMap_append, List.take_append_drop] at hon
  rw [jozaMsgSend, hid]
  simp only [jozaMsgRecv, putFields, hid, MsgId.code]
  exact congrArg Prod.fst hon

/-- What is received lists the workers exactly if there are not too many entries and no name
has a `=`. -/
theorem lists_receivedDirectory_iff (h : Lists t entries)
    (hfits : ∀ e ∈ entries, Fits e) :
    Lists t (receivedDirectory entries) ↔
      t.size ≤ 255 ∧ ∀ k w, t.get? k = some w → 61 ∉ w.address.bytes := by
  constructor
  · intro hrecv
    constructor
    · have hle := @length_foldl_zhashInsert_le
        ((entries.take (entries.length % 256)).map received) []
      rw [← receivedDirectory, hrecv.length, List.length_map, List.length_take, h.length] at hle
      have hmod := Nat.mod_lt t.size (show 0 < 256 by decide)
      simp only [List.length_nil] at hle
      omega
    · intro k w hw
      have hmem : entryOf w ∈ receivedDirectory entries := (hrecv.mem_iff _).2 ⟨k, w, hw, rfl⟩
      obtain hnil | hreceived := mem_foldl_zhashInsert hmem
      · cases hnil
      · obtain ⟨e, -, he⟩ := List.mem_map.1 hreceived
        have hclean : 61 ∉ (received e).1.bytes := received_clean
        rwa [he] at hclean
  · rintro ⟨hsize, hclean⟩
    have hall : (entries.take (entries.length % 256)).map received = entries := by
      rw [Nat.mod_eq_of_lt (by rw [h.length]; omega), List.take_length]
      refine (List.map_congr_left fun e he => ?_).trans (List.map_id _)
      obtain ⟨k, w, hw, rfl⟩ := (h.mem_iff e).1 he
      exact (hfits _ he).received_eq (hclean k w hw)
    rw [receivedDirectory, hall, foldl_zhashInsert (by simpa using h.keys_nodup)]
    exact h

/-! ### The answer of the broker -/

/-- A directory is sent as the answer to a request. -/
theorem sProcess_directory (h : sProcess b msg env = .ok (b', outs)) (hreply : reply ∈ outs)
    (hid : reply.id = .directory) :
    reply.workers = workersTableCreateDirectory (b.touch (senderKey msg env) env.now).workers := by
  cases sProcess_outcome h with
  | directory =>
    obtain rfl := List.mem_singleton.1 hreply
    rfl
  | call _ _ hdisp => exact absurd hid ((channelDispatch_effect hdisp).id_ne reply hreply).2
  | closed _ _ hdisp => exact absurd hid ((channelDispatch_effect hdisp).id_ne reply hreply).2
  | stray | left | ignored | unknown => cases hreply
  | malformed | callRefused | connectRefused | callPlaced | connected =>
    obtain rfl := List.mem_singleton.1 hreply
    cases hid

/-- The access time of a worker is not in the directory. -/
theorem lists_touch {key : ℕ} {now : ℤ} :
    Lists (b.touch key now).workers dir ↔ Lists b.workers dir := by
  have hget : ∀ k, ((b.touch key now).workers.get? k).map entryOf =
      (b.workers.get? k).map entryOf := by
    intro k
    rw [JozaPoll.touch, Table.get?_modify]
    split_ifs
    · rw [Option.map_map]
      rfl
    · rfl
  exact ⟨fun h => h.congr Table.size_modify hget,
    fun h => h.congr Table.size_modify.symm fun k => (hget k).symm⟩

/-- What is sent is the directory of the table, and its entries are not too long. -/
theorem sent_lists (hb : brokerSystem.Reachable b) (h : sProcess b msg env = .ok (b', outs))
    (hreply : reply ∈ outs) (hid : reply.id = .directory) (hperm : entries.Perm reply.workers) :
    Lists b.workers entries ∧ ∀ e ∈ entries, Fits e := by
  have hnames := Names.of_reachable hb
  have hlists : Lists b.workers entries := by
    rw [sProcess_directory h hreply hid] at hperm
    exact lists_touch.1 ((lists_createDirectory (Names.keptByMoves.touch hnames)).perm hperm)
  refine ⟨hlists, fun e he => ?_⟩
  obtain ⟨k, w, hw, rfl⟩ := (hlists.mem_iff e).1 he
  exact fits_entryOf (hnames.address_length k w hw).2

/-- **The directory.** In a reachable state, and in whatever order the entries of the hash
table are written, what is received of the directory that is sent is the directory of the
table exactly if there are at most 255 workers and no name has a `=`. -/
theorem directory_fidelity (address : Frame) (hb : brokerSystem.Reachable b)
    (h : sProcess b msg env = .ok (b', outs)) (hreply : reply ∈ outs)
    (hid : reply.id = .directory) (hperm : entries.Perm reply.workers) :
    (∃ m, jozaMsgRecv address (jozaMsgSend { reply with workers := entries }) = .ok m ∧
        Lists b.workers m.workers) ↔
      b.workers.size ≤ 255 ∧ ∀ k w, b.workers.get? k = some w → 61 ∉ w.address.bytes := by
  obtain ⟨hlists, hfits⟩ := sent_lists hb h hreply hid hperm
  rw [← lists_receivedDirectory_iff hlists hfits,
    @jozaMsgRecv_directory { reply with workers := entries } address hid hfits]
  constructor
  · rintro ⟨m, hm, hrecv⟩
    cases hm
    exact hrecv
  · exact fun hrecv => ⟨_, rfl, hrecv⟩

/-- `A` asks for the directory. -/
def directoryA : JozaMsg :=
  { id := .directoryRequest, address := [0, 1, 0, 0, 0] }

/-- `A` connects under a name with a `=`. -/
def connectEqA : JozaMsg :=
  { connectA with callingAddress := .ofBytes [65, 61, 66] }

/-- `A` receives the directory of the two workers. -/
theorem directory_fidelity_bothReady : ∃ m reply,
    reply.workers.length = 2 ∧ jozaMsgRecv [] (jozaMsgSend reply) = .ok m ∧
      Lists bothReady.workers m.workers := by
  obtain ⟨b', outs, reply, h, hreply, hid, hlength⟩ : ∃ b' outs reply,
      sProcess bothReady directoryA quietEnv = .ok (b', outs) ∧ reply ∈ outs ∧
        reply.id = .directory ∧ reply.workers.length = 2 :=
    ⟨_, _, _, rfl, List.mem_singleton_self _, rfl, rfl⟩
  have hnames : bothReady.workers.size ≤ 255 ∧
      ∀ e ∈ bothReady.workers.entries, 61 ∉ e.2.address.bytes := by
    decide
  obtain ⟨m, hm, hlists⟩ := (directory_fidelity [] bothReady_reachable.of_restrict h hreply hid
    (List.Perm.refl reply.workers)).2
    ⟨hnames.1, fun k w hw => hnames.2 ⟨k, w⟩ (Table.get?_eq_some.1 hw)⟩
  exact ⟨m, reply, hlength, hm, hlists⟩

/-- The receiver does not find a worker whose name has a `=`. -/
theorem directory_split : ¬ ∀ (b b' : JozaPoll) (msg reply : JozaMsg) (env : Env)
    (outs : List JozaMsg), brokerSystem.Reachable b → sProcess b msg env = .ok (b', outs) →
      reply ∈ outs → reply.id = .directory →
        ∃ m, jozaMsgRecv [] (jozaMsgSend reply) = .ok m ∧ Lists b.workers m.workers := by
  intro hclaim
  obtain ⟨b, b', outs, reply, hrun, h, hreply, hid, k, w, hw, heq⟩ :
      ∃ b b' outs reply, recvAll .start [connectEqA] = .ok b ∧
        sProcess b directoryA quietEnv = .ok (b', outs) ∧ reply ∈ outs ∧ reply.id = .directory ∧
          ∃ k w, b.workers.get? k = some w ∧ 61 ∈ w.address.bytes :=
    ⟨_, _, _, _, rfl, rfl, List.mem_singleton_self _, rfl, 1, _, rfl, by decide⟩
  have hb := recvAll_reachable (.init rfl) rfl hrun
  obtain ⟨hlists, hfits⟩ := sent_lists hb h hreply hid (List.Perm.refl _)
  obtain ⟨m, hm, hrecv⟩ := hclaim b b' directoryA reply quietEnv outs hb h hreply hid
  rw [jozaMsgRecv_directory [] hid hfits] at hm
  cases hm
  exact ((lists_receivedDirectory_iff hlists hfits).1 hrecv).2 k w hw heq

end Broker
end Jozabad
