import Microkernel.Proof.Session

/-! What the two processes of the init program print.  Process A prints its greeting and an echo of
each message that it receives from the serial line, process B its lines about process A; the port
receives both, in the order in which the processes come to run. -/

namespace Microkernel

open Lib

namespace Init

open User

/-! ### A log of two voices -/

/-- What process `i` has printed, of a log of who printed what. -/
def said (i : Nat) (log : List (Nat × UInt8)) : List UInt8 :=
  log.filterMap fun w => if w.1 = i then some w.2 else none

variable {i j : Nat} {b : UInt8} {log log' : List (Nat × UInt8)}

theorem said_own : said i (log ++ [(i, b)]) = said i log ++ [b] := by
  simp [said]

theorem said_other (other : j ≠ i) : said i (log ++ [(j, b)]) = said i log := by
  simp [said, other]

/-! ### What they have still to print -/

/-- What process A prints for a message. -/
def echoed (m : Message) : List UInt8 := if m.label = 3 then echo m.payload.1.toUInt8 else []

/-- What process A prints before it receives again, with `msg` at `buf`. -/
def Server.rest (buf : UInt64) (mem : Memory) : Server → List UInt8
  | .registering => greeting
  | .printing rest => rest
  | .received =>
    if mem.read64 (buf + 16) = 3 then echo (mem.read64 (buf + 24)).toUInt8 else []
  | .yielding => []

/-- What process B has printed, where `pid` is registered for the service: its lines, up to the rest
that it has still to print. -/
def Client.Spoke (pid : Option TaskId) : Client → List UInt8 → Prop
  | .starting rest, out => out ++ rest = announcement
  | .pausing _, out | .looking, out => out = announcement
  | .reporting rest, out => ∃ id, pid = some id ∧ out ++ rest = announcement ++ report id.val
  | .leaving rest, out => out ++ rest = announcement ++ farewell ∨
      ∃ id, pid = some id ∧ out ++ rest = announcement ++ report id.val ++ farewell

theorem Client.Spoke.registered {c : Client} {out : List UInt8} (spoken : c.Spoke none out)
    (pid : Option TaskId) : c.Spoke pid out := by
  cases c with
  | starting | pausing | looking => exact spoken
  | reporting rest =>
    obtain ⟨id, absent, -⟩ := spoken
    cases absent
  | leaving rest =>
    rcases spoken with plain | ⟨id, absent, -⟩
    · exact .inl plain
    · cases absent

/-- Process B keeps to its lines at a step that prints the next byte. -/
theorem Client.Spoke.print {c : Client} {out : List UInt8} {pid : Option TaskId} {value : UInt64}
    (spoken : c.Spoke pid out) (act : c.act = .call 1 b.toUInt64) :
    (c.next value).Spoke pid (out ++ [b]) := by
  have first : ∀ d : UInt8, Act.call 1 d.toUInt64 = .call 1 b.toUInt64 → d = b := by
    intro d same
    injection same with _ bytes
    rw [← UInt8.toUInt8_toUInt64 d, bytes, UInt8.toUInt8_toUInt64]
  have joined : ∀ rest, out ++ [b] ++ rest = out ++ b :: rest := fun rest => by simp
  cases c with
  | starting rest =>
    cases rest with
    | nil => cases act
    | cons d rest =>
      obtain rfl := first d act
      exact (joined rest).trans spoken
  | pausing => cases act
  | looking => simp [Client.act] at act
  | reporting rest =>
    cases rest with
    | nil => cases act
    | cons d rest =>
      obtain rfl := first d act
      obtain ⟨id, found, lines⟩ := spoken
      exact ⟨id, found, (joined rest).trans lines⟩
  | leaving rest =>
    cases rest with
    | nil => cases act
    | cons d rest =>
      obtain rfl := first d act
      rcases spoken with lines | ⟨id, found, lines⟩
      · exact .inl ((joined rest).trans lines)
      · exact .inr ⟨id, found, (joined rest).trans lines⟩

/-- Code of process B that makes no call prints nothing. -/
theorem Client.Spoke.own {c : Client} {out : List UInt8} {pid : Option TaskId} {value : UInt64}
    (spoken : c.Spoke pid out) (act : c.act = .own) : (c.next value).Spoke pid out := by
  cases c with
  | starting rest =>
    cases rest with
    | nil =>
      change out ++ [] = announcement at spoken
      rw [List.append_nil] at spoken
      exact spoken
    | cons => cases act
  | pausing left => cases left <;> exact spoken
  | looking => cases act
  | reporting rest =>
    cases rest with
    | nil =>
      obtain ⟨id, found, lines⟩ := spoken
      rw [List.append_nil] at lines
      exact .inr ⟨id, found, by rw [lines]⟩
    | cons => cases act
  | leaving rest => cases rest <;> cases act

/-- What process B is told about the service is what it reports. -/
theorem Client.Spoke.find {out : List UInt8} {pid : Option TaskId} :
    Client.looking.Spoke pid out → (Client.looking.next (match pid with
      | some pid => pid.val
      | none => 0xFFFFFFFFFFFFFFFF)).Spoke pid out := by
  intro spoken
  change out = announcement at spoken
  subst spoken
  unfold Client.next
  cases pid with
  | none =>
    rw [if_neg (not_not.mpr rfl)]
    exact .inl rfl
  | some id =>
    by_cases absent : id.val ≠ 0xFFFFFFFFFFFFFFFF
    · rw [if_pos absent]
      exact ⟨id, rfl, rfl⟩
    · rw [if_neg absent]
      exact .inl rfl

/-- What process A has to print depends on the bytes of `msg` alone. -/
theorem Server.rest_congr {buf : UInt64} {mem mem' : Memory} (p : Server)
    (same : ∀ n < 40, mem' (buf + UInt64.ofNat n) = mem (buf + UInt64.ofNat n)) :
    p.rest buf mem' = p.rest buf mem := by
  have word : ∀ offset : UInt64, offset.toNat + 8 ≤ 40 →
      mem'.read64 (buf + offset) = mem.read64 (buf + offset) := by
    intro offset inside
    unfold Memory.read64
    rw [Memory.readBytes_congr (by decide) fun x within => ?_]
    have place : (x - buf).toNat < 40 := by
      have := x.toNat_lt
      have := buf.toNat_lt
      simp only [Memory.Within, UInt64.toNat_sub, UInt64.toNat_add] at within ⊢
      omega
    have here := same (x - buf).toNat place
    rwa [UInt64.ofNat_toNat, UInt64.add_comm, UInt64.sub_add_cancel] at here
  cases p with
  | registering | printing | yielding => rfl
  | received =>
    unfold Server.rest
    rw [word 16 (by decide), word 24 (by decide)]

theorem Server.next_ne_registering {buf value : UInt64} {mem : Memory} (p : Server) :
    p.next buf value mem ≠ .registering := by
  unfold Server.next
  split
  next => simp
  next => simp
  next => split <;> simp
  next => split <;> simp
  next => simp

theorem Server.rest_next_received {buf value : UInt64} {mem : Memory} :
    (Server.received.next buf value mem).rest buf mem = Server.received.rest buf mem := by
  unfold Server.next Server.rest
  by_cases serial : mem.read64 (buf + 16) = 3
  · rw [if_pos serial, if_pos serial]
  · rw [if_neg serial, if_neg serial]

/-- The message that `SYS_RECV` has stored is the one that process A reads. -/
theorem Server.rest_received (buf : UInt64) (mem : Memory) (m : Message) :
    Server.received.rest buf (mem.storeAll buf m.words) = echoed m := by
  have words : (mem.storeAll buf m.words).readWords buf 5 = m.words :=
    Memory.storeAll_words mem buf m.words (show 8 * 5 ≤ 2 ^ 64 by decide)
  generalize mem.storeAll buf m.words = stored at words ⊢
  simp only [Memory.readWords, Message.words, List.cons.injEq] at words
  obtain ⟨-, -, label, payload, -⟩ := words
  have second : buf + 8 + 8 = buf + 16 := by
    rw [UInt64.add_assoc]
    rfl
  have third : buf + 16 + 8 = buf + 24 := by
    rw [UInt64.add_assoc]
    rfl
  rw [second] at label
  rw [second, third] at payload
  rw [Server.rest, label, payload]
  rfl

namespace Session

/-- The log gets each byte that a process prints. -/
def noteOutput (buf : UInt64) (s : Session) (e : Event) (log : List (Nat × UInt8)) :
    List (Nat × UInt8) :=
  match e with
  | .user i _ _ =>
    match (s.point i).act buf with
    | .call id c => if id = 1 then log ++ [(i, c.toUInt8)] else log
    | _ => log
  | _ => log

variable {buf : UInt64} {s s' : Session} {e : Event}

/-- The port has received what the log says, process A has printed its greeting and the echoes of
the messages that it has received, up to what it has still to print, and process B its lines. -/
structure Told (buf : UInt64) (s : Session) (log : List (Nat × UInt8)) : Prop where
  printed : s.kernel.printed = log.flatMap fun w => encoded w.2
  server : ∀ p, s.point 0 = .server p →
    said 0 log ++ p.rest buf s.kernel.mem = greeting ++ s.kernel.receipts.flatMap echoed
  service : s.kernel.serviceRegistry serviceNameSerial = none ∨
    s.point 0 ≠ .server .registering ∧
      ∃ pid, s.kernel.serviceRegistry serviceNameSerial = some ⟨pid⟩ ∧ (pid = 0 ∨ pid = 1)
  client : ∀ c, s.point 1 = .client c →
    c.Spoke (s.kernel.serviceRegistry serviceNameSerial) (said 1 log)

/-- Nobody prints. -/
theorem Told.framed (told : s.Told buf log) (framed : Kernel.Framed s.kernel s'.kernel)
    (point : s'.point = s.point) : s'.Told buf log where
  printed := framed.printed.trans told.printed
  server := by
    rw [point, framed.mem, framed.receipts]
    exact told.server
  service := by
    rw [point, framed.services]
    exact told.service
  client := by
    rw [point, framed.services]
    exact told.client

theorem Told.stores (told : s.Told buf log) {f : Memory}
    (apart : ∀ n < 40, f (buf + UInt64.ofNat n) = s.kernel.mem (buf + UInt64.ofNat n)) :
    Told buf { s with kernel := s.kernel.userWrites f } log where
  printed := told.printed
  server p here := by
    have same : ∀ n < 40, (s.kernel.userWrites f).mem (buf + UInt64.ofNat n) =
        s.kernel.mem (buf + UInt64.ofNat n) := by
      intro n inside
      show (if s.kernel.userCanWrite _ then f _ else _) = _
      rw [apart n inside, ite_self]
    show said 0 log ++ p.rest buf (s.kernel.userWrites f).mem = _
    rw [Server.rest_congr p same]
    exact told.server p here
  service := told.service
  client := told.client

theorem noteOutput_print {i : Nat} {arg2 rsp : UInt64}
    (here : (s.point i).act buf = .call 1 b.toUInt64) :
    noteOutput buf s (.user i arg2 rsp) log = log ++ [(i, b)] := by
  have same : b.toUInt64.toUInt8 = b := UInt8.toUInt8_toUInt64 b
  simp only [noteOutput, here, if_true, same]

theorem noteOutput_silent {i : Nat} {arg2 rsp : UInt64}
    (silent : ∀ c, (s.point i).act buf ≠ .call 1 c) :
    noteOutput buf s (.user i arg2 rsp) log = log := by
  unfold noteOutput
  dsimp only
  split
  next id c here =>
    rw [if_neg]
    rintro rfl
    exact silent c here
  next => rfl

theorem moved_point {value : UInt64} {k : Kernel} (idx : k.currentTaskIdx = i) :
    (s.moved buf value k).point i = (s.point i).next buf value k.mem := by
  show Function.update s.point k.currentTaskIdx ((s.point k.currentTaskIdx).next _ _ _) i = _
  rw [idx, Function.update_self]

theorem moved_point_ne {value : UInt64} {k : Kernel} (idx : k.currentTaskIdx = i) (other : j ≠ i) :
    (s.moved buf value k).point j = s.point j := by
  show Function.update s.point k.currentTaskIdx ((s.point k.currentTaskIdx).next _ _ _) j = _
  rw [idx, Function.update_of_ne other]

/-- Process A has gone on to the point `p'`, and the log is `log'`. -/
theorem Told.server_moves (told : s.Told buf log) {p' : Server} {value : UInt64} {k : Kernel}
    (idx : k.currentTaskIdx = 0) (next : (s.point 0).next buf value k.mem = .server p')
    (printed : k.printed = log'.flatMap fun w => encoded w.2)
    (server : said 0 log' ++ p'.rest buf k.mem = greeting ++ k.receipts.flatMap echoed)
    (service : k.serviceRegistry serviceNameSerial = none ∨ p' ≠ .registering ∧
      ∃ pid, k.serviceRegistry serviceNameSerial = some ⟨pid⟩ ∧ (pid = 0 ∨ pid = 1))
    (registered : k.serviceRegistry serviceNameSerial =
        s.kernel.serviceRegistry serviceNameSerial ∨
      s.kernel.serviceRegistry serviceNameSerial = none)
    (client : said 1 log' = said 1 log) : (s.moved buf value k).Told buf log' where
  printed := printed
  server p here := by
    rw [moved_point idx, next] at here
    cases here
    exact server
  service := by
    rw [moved_point idx, next]
    rcases service with absent | ⟨later, found⟩
    · exact .inl absent
    · refine .inr ⟨fun same => later ?_, found⟩
      injection same
  client c here := by
    rw [moved_point_ne idx (by decide)] at here
    have spoken := told.client c here
    rw [client]
    rcases registered with same | absent
    · show c.Spoke (k.serviceRegistry serviceNameSerial) _
      rwa [same]
    · rw [absent] at spoken
      exact spoken.registered _

/-- Process B has gone on to the point `c'`, and the log is `log'`. -/
theorem Told.client_moves (told : s.Told buf log) {c' : Client} {value : UInt64} {k : Kernel}
    (idx : k.currentTaskIdx = 1) (next : (s.point 1).next buf value k.mem = .client c')
    (mem : k.mem = s.kernel.mem) (receipts : k.receipts = s.kernel.receipts)
    (services : k.serviceRegistry = s.kernel.serviceRegistry)
    (printed : k.printed = log'.flatMap fun w => encoded w.2)
    (server : said 0 log' = said 0 log)
    (client : c'.Spoke (s.kernel.serviceRegistry serviceNameSerial) (said 1 log')) :
    (s.moved buf value k).Told buf log' where
  printed := printed
  server p here := by
    rw [moved_point_ne idx (by decide)] at here
    show said 0 log' ++ p.rest buf k.mem = greeting ++ k.receipts.flatMap echoed
    rw [server, mem, receipts]
    exact told.server p here
  service := by
    rw [moved_point_ne idx (by decide)]
    show k.serviceRegistry serviceNameSerial = none ∨ _ ∧
      ∃ pid, k.serviceRegistry serviceNameSerial = some ⟨pid⟩ ∧ _
    rw [services]
    exact told.service
  client c here := by
    rw [moved_point idx, next] at here
    cases here
    show c'.Spoke (k.serviceRegistry serviceNameSerial) _
    rw [services]
    exact client

/-- Process A runs under its own identifier or under 0. -/
theorem Orderly.server_id (orderly : s.Orderly buf) (cur : s.kernel.Current 0) :
    s.kernel.currentTaskId = 0 ∨ s.kernel.currentTaskId = 1 := by
  rcases orderly.identifies with idle | ⟨t, running, same⟩
  · exact .inl idle
  · rw [cur.unique running, orderly.named.1] at same
    exact .inr same

theorem Told.server_acts (told : s.Told buf log) (orderly : s.Orderly buf)
    (idx : s.kernel.currentTaskIdx = 0) (cur : s.kernel.Current 0) {p : Server}
    (point : s.point 0 = .server p) (acts : Acts buf s (p.act buf) s') {arg2 rsp : UInt64} :
    s'.Told buf (noteOutput buf s (.user 0 arg2 rsp) log) := by
  have act : (s.point 0).act buf = p.act buf := congrArg (Point.act buf) point
  have next : ∀ value mem, (s.point 0).next buf value mem = .server (p.next buf value mem) := by
    intro value mem
    rw [point]
    rfl
  have server := told.server p point
  have silent : (∀ d, p.act buf ≠ .call 1 d) → noteOutput buf s (.user 0 arg2 rsp) log = log := by
    intro none_printed
    exact noteOutput_silent fun d same => none_printed d (act.symm.trans same)
  have service : ∀ value mem, s.kernel.serviceRegistry serviceNameSerial = none ∨
      p.next buf value mem ≠ .registering ∧
        ∃ pid, s.kernel.serviceRegistry serviceNameSerial = some ⟨pid⟩ ∧ (pid = 0 ∨ pid = 1) :=
    fun _ _ => told.service.imp_right fun found => ⟨Server.next_ne_registering _, found.2⟩
  cases acts.server with
  | registers =>
    rw [silent fun d => by simp [Server.act]]
    refine told.server_moves idx (next _ _) told.printed server
      (.inr ⟨Server.next_ne_registering _, ?_⟩) ?_ rfl
    · have entry : Function.update s.kernel.serviceRegistry serviceNameSerial
          (some ⟨s.kernel.currentTaskId⟩) serviceNameSerial = some ⟨s.kernel.currentTaskId⟩ :=
        Function.update_self ..
      exact ⟨s.kernel.currentTaskId, entry, orderly.server_id cur⟩
    · exact .inr (told.service.resolve_right fun later => later.1 point)
  | @prints b rest =>
    rw [noteOutput_print (act.trans rfl)]
    refine told.server_moves idx (next _ _) ?_ ?_ (service _ _) (.inl rfl) (said_other (by decide))
    · show s.kernel.printed ++ encoded b = _
      rw [told.printed, List.flatMap_append]
      simp
    · rw [said_own, List.append_assoc]
      exact server
  | @receives m waiting =>
    rw [silent fun d => by simp [Server.act]]
    refine told.server_moves idx (next _ _) told.printed ?_ (service _ _) (.inl rfl) rfl
    show said 0 log ++ Server.received.rest buf (s.kernel.mem.storeAll buf m.words) =
      greeting ++ (SlotEvent.takes ((s.kernel.history ++
        [Observation.received m]).filterMap Kernel.initEvent)).flatMap echoed
    rw [Server.rest_received, Kernel.events_snoc (e := .take m) rfl, SlotEvent.takes_append,
      List.flatMap_append, ← List.append_assoc]
    change _ ++ _ = (greeting ++ s.kernel.receipts.flatMap echoed) ++ _
    rw [← server]
    simp [Server.rest]
  | finds_none =>
    rw [silent fun d => by simp [Server.act]]
    exact told.server_moves idx (next _ _) told.printed server (service _ _) (.inl rfl) rfl
  | goes_on =>
    rw [silent fun d => by simp [Server.act]]
    have goes : (s.moved buf 0 s.kernel).Told buf log := by
      refine told.server_moves idx (next _ _) told.printed ?_ (service _ _) (.inl rfl) rfl
      rw [← server, Server.rest_next_received]
    exact goes.framed (.refl _) rfl
  | yields =>
    rw [silent fun d => by simp [Server.act]]
    have goes : (s.moved buf 0 s.kernel).Told buf log :=
      told.server_moves idx (next _ _) told.printed server (service _ _) (.inl rfl) rfl
    exact goes.framed (.refl _) rfl

theorem Told.client_acts (told : s.Told buf log) (idx : s.kernel.currentTaskIdx = 1) {c : Client}
    (point : s.point 1 = .client c) (acts : Acts buf s c.act s') (sound : s.kernel.Sound)
    {arg2 rsp : UInt64} : s'.Told buf (noteOutput buf s (.user 1 arg2 rsp) log) := by
  have act : (s.point 1).act buf = c.act := congrArg (Point.act buf) point
  have next : ∀ value mem, (s.point 1).next buf value mem = .client (c.next value) := by
    intro value mem
    rw [point]
    rfl
  have client := told.client c point
  have silent : (∀ d, c.act ≠ .call 1 d) →
      noteOutput buf s (.user 1 arg2 rsp) log = log := by
    intro none_printed
    exact noteOutput_silent fun d same => none_printed d (act.symm.trans same)
  cases acts with
  | own here =>
    rw [silent (by rw [here]; exact nofun)]
    have goes : (s.moved buf 0 s.kernel).Told buf log :=
      told.client_moves idx (next _ _) rfl rfl rfl told.printed rfl (client.own here)
    exact goes.framed (.refl _) rfl
  | @print b here =>
    rw [noteOutput_print (act.trans here)]
    refine told.client_moves idx (next _ _) rfl rfl rfl ?_ (said_other (by decide)) ?_
    · show s.kernel.printed ++ encoded b = _
      rw [told.printed, List.flatMap_append]
      simp
    · rw [said_own]
      exact client.print here
  | find here =>
    have looking : c = .looking := by
      unfold Client.act at here
      split at here
      all_goals first | rfl | cases here
    rw [silent (by rw [here]; exact fun d => by simp)]
    subst looking
    exact told.client_moves idx (next _ _) rfl rfl rfl told.printed rfl client.find
  | die here handled =>
    rw [silent (by rw [here]; exact nofun)]
    exact told.framed (Kernel.faultHandlerInner_framed sound handled) rfl
  | register here | receive here | empty here | yield here =>
    unfold Client.act at here
    split at here
    all_goals cases here

theorem Told.step (told : s.Told buf log) (orderly : s.Orderly buf) (step : s.Step buf e s') :
    s'.Told buf (noteOutput buf s e log) := by
  obtain ⟨enabled, run⟩ := step
  have interrupted : ∀ ev, interrupt? e = some ev → s.interrupted ev = .ok s' →
      s'.Told buf log := by
    intro ev interrupt ran
    obtain ⟨happened, point⟩ := interrupted_cases ran
    exact told.framed (orderly.handled interrupt happened).framed point
  cases e with
  | user i arg2 rsp =>
    obtain ⟨rfl, -⟩ := enabled
    have acts := orderly.userStep run
    rcases orderly.running with ⟨idx, cur⟩ | ⟨idx, -, -⟩
    · obtain ⟨⟨p, point⟩, -⟩ := orderly.server
      rw [idx] at acts ⊢
      rw [point] at acts
      exact told.server_acts orderly idx cur point acts
    · obtain ⟨c, point, -⟩ := orderly.client
      rw [idx] at acts ⊢
      rw [point] at acts
      exact told.client_acts idx point acts orderly.sound
  | stores i f =>
    cases run
    exact told.stores enabled.2.2
  | timer rsp => exact interrupted (.timer [.ready] rsp) rfl run
  | keyboard data rsp => exact interrupted (.keyboard data [.ready] rsp) rfl run
  | serial data rsp => exact interrupted (.serial data [.ready] rsp) rfl run

/-- The lines of process B. -/
theorem Told.lines (told : s.Told buf log) {c : Client} (point : s.point 1 = .client c) :
    ∃ found, (found = [] ∨ found = report 0 ∨ found = report 1) ∧
      said 1 log <+: announcement ++ found ++ farewell := by
  have spoken := told.client c point
  have known : ∀ id, s.kernel.serviceRegistry serviceNameSerial = some id →
      report id.val = report 0 ∨ report id.val = report 1 := by
    intro id registered
    rcases told.service with absent | ⟨-, pid, found, zero | one⟩
    · rw [registered] at absent
      cases absent
    · rw [registered] at found
      cases found
      exact .inl (congrArg report zero)
    · rw [registered] at found
      cases found
      exact .inr (congrArg report one)
  cases c with
  | starting rest =>
    refine ⟨[], .inl rfl, rest ++ farewell, ?_⟩
    rw [← List.append_assoc, show said 1 log ++ rest = announcement from spoken, List.append_nil]
  | pausing | looking =>
    refine ⟨[], .inl rfl, farewell, ?_⟩
    rw [show said 1 log = announcement from spoken, List.append_nil]
  | reporting rest =>
    obtain ⟨id, registered, lines⟩ := spoken
    refine ⟨report id.val, .inr (known id registered), rest ++ farewell, ?_⟩
    rw [← List.append_assoc, lines]
  | leaving rest =>
    rcases spoken with lines | ⟨id, registered, lines⟩
    · exact ⟨[], .inl rfl, rest, by rw [lines, List.append_nil]⟩
    · exact ⟨report id.val, .inr (known id registered), rest, lines⟩

section Beginning

variable {entry kstackA kstackB monitorStackTop : UInt64} {mem : Memory}
  {pages : UInt64 → Option PageFlags} {s0 : Session} {es : List Event}

theorem Begins.told (begins : Begins entry kstackA kstackB monitorStackTop mem pages s0) :
    s0.Told buf [] := by
  obtain ⟨server, client⟩ := begins.points
  obtain ⟨boot, -, -⟩ := begins
  have rested := Kernel.kernelMain_rested boot
  obtain ⟨k1, q, image, -, eq, -, -, main⟩ := Kernel.kernelMain_eq boot
  have printed : s0.kernel.printed = [] := by
    rw [main, eq]
    rfl
  have services : s0.kernel.serviceRegistry serviceNameSerial = none := by
    rw [main, eq]
    rfl
  refine ⟨printed, fun p here => ?_, .inl services, fun c here => ?_⟩
  · rw [server] at here
    cases here
    rw [Kernel.receipts, rested.silent]
    exact (List.append_nil greeting).symm
  · rw [client] at here
    cases here
    rfl

theorem Begins.run (begins : Begins entry kstackA kstackB monitorStackTop mem pages s0)
    (writable : Sys.Writable s0.kernel buf 40)
    (run : Run (Recorded (noteOutput buf) (Step buf)) (s0, []) es (s, log)) :
    s.Orderly buf ∧ s.Told buf log :=
  run.invariant (I := fun both => both.1.Orderly buf ∧ both.1.Told buf both.2)
    ⟨begins.orderly writable, begins.told⟩ fun a _ b before step => by
      obtain ⟨happened, noted⟩ := step
      rw [noted]
      exact ⟨before.1.step happened, before.2.step before.1 happened⟩

/-- In every state that the session reaches, between any interrupts, the port has received what the
processes have printed, in the order in which they came to run.  Process A has printed its greeting
and then, in order, an echo of each message from the serial line that the next post did not replace,
up to what it has still to print and to the message that still waits.  Process B has printed its
lines, with the identifier 1 or 0 for process A if it has found it. -/
theorem echoes_kept (begins : Begins entry kstackA kstackB monitorStackTop mem pages s0)
    (writable : Sys.Writable s0.kernel buf 40)
    (run : Run (Recorded (noteOutput buf) (Step buf)) (s0, []) es (s, log)) :
    s.kernel.printed = log.flatMap (fun w => encoded w.2) ∧
    (∃ p, s.point 0 = .server p ∧ said 0 log ++ p.rest buf s.kernel.mem ++
        s.kernel.initMailbox.toList.flatMap echoed =
      greeting ++ (SlotEvent.kept (s.kernel.history.filterMap Kernel.initEvent)).flatMap echoed) ∧
    ∃ found, (found = [] ∨ found = report 0 ∨ found = report 1) ∧
      said 1 log <+: announcement ++ found ++ farewell := by
  obtain ⟨orderly, told⟩ := begins.run writable run
  obtain ⟨⟨p, server⟩, -⟩ := orderly.server
  obtain ⟨c, client, -⟩ := orderly.client
  refine ⟨told.printed, ⟨p, server, ?_⟩, told.lines client⟩
  rw [told.server p server, ← orderly.follows.received, List.flatMap_append, List.append_assoc]
  rfl

end Beginning

/-- Process A registers, and a byte arrives before it begins to print. -/
theorem echoes_kept_byte : ∃ (s0 s : Session) (log : List (Nat × UInt8)),
    Kernel.heapBoot = .ok s0.kernel ∧
    Run (Recorded (noteOutput 0x30007000) (Step 0x30007000)) (s0, [])
      [.user 0 0 0x30007f58, .serial 0x41 0x444444447f60] (s, log) ∧
    ∃ p, s.point 0 = .server p ∧ said 0 log ++ p.rest 0x30007000 s.kernel.mem ++
        s.kernel.initMailbox.toList.flatMap echoed =
      greeting ++
        (SlotEvent.kept (s.kernel.history.filterMap Kernel.initEvent)).flatMap echoed := by
  obtain ⟨s0, boot, begins, writable⟩ := heapBoot_begins
  have orderly := begins.orderly writable
  have idx : s0.kernel.currentTaskIdx = 0 := (Kernel.kernelMain_processes begins.1).2.1
  have first : s0.Enabled 0x30007000 (.user 0 0 0x30007f58) := ⟨idx.symm, begins.2.2⟩
  obtain ⟨s1, registers⟩ := orderly.progress first
  obtain ⟨s, arrives⟩ :=
    (orderly.step registers).progress (e := .serial 0x41 0x444444447f60) trivial
  let log := noteOutput 0x30007000 s0 (.user 0 0 0x30007f58) []
  have begun : Recorded (noteOutput 0x30007000) (Step 0x30007000) (s0, [])
      (.user 0 0 0x30007f58) (s1, log) := ⟨registers, rfl⟩
  have posted : Recorded (noteOutput 0x30007000) (Step 0x30007000) (s1, log)
      (.serial 0x41 0x444444447f60) (s, log) := ⟨arrives, rfl⟩
  have run := (Run.single begun).snoc posted
  exact ⟨s0, s, _, boot, run, (echoes_kept begins writable run).2.1⟩

end Session

end Init

end Microkernel
