import BandwidthLimiter.Limiter.Threads

namespace BandwidthLimiter
open Foundation

/-- The remaining count of the port loses the moved bytes, down to zero, and no other port
changes. -/
structure Charged (call : Pending) (moved : Int) (contStr next : ControllerStruct) : Prop where
  entry : ∃ data later, contStr.regEnvStr.get call.port = some data ∧
    next.regEnvStr.get call.port = some later ∧
    later.remaining call.flag = max 0 (data.remaining call.flag - moved)
  others : ∀ q, q ≠ call.port → next.regEnvStr.get q = contStr.regEnvStr.get q

/-- A finished call with moved bytes charges the port of its grant. -/
def Threads.Charges (state : Threads) : ThreadEvent → Threads → Prop
  | .finish call _, next => ∀ moved, call.moved = some moved → 0 < moved →
      Charged call moved state.contStr next.contStr
  | _, _ => True

/-- The descriptor of a finished call with moved bytes was not closed since its `pre_op`, or it is
registered again with the same port. -/
def Threads.Served (state : Threads) : ThreadEvent → Prop
  | .finish call _ => 0 < call.uncharged → call.closed = false ∨
      getDestPort state.contStr.socStr call.fd = .ok (some call.port)
  | _ => True

/-- The registry leads every unclosed call to the port of its grant. -/
structure Tracked (state : Threads) (registry : Registry Int UInt32) : Prop where
  denotes : Denotes state.contStr registry
  unclosed : ∀ call ∈ state.calls, call.closed = false → registry.dest call.fd = some call.port

theorem Section.IsSocketCall.single {event : Section} (wrapper : event.IsSocketCall) :
    event.duplicates = false := by
  cases event <;> first | rfl | cases wrapper

section Passed

variable {call : Pending} {event : Section}

@[simp] theorem Pending.passed_fd : (call.passed event).fd = call.fd := by
  cases event <;> simp only [Pending.passed]
  split <;> rfl

@[simp] theorem Pending.passed_port : (call.passed event).port = call.port := by
  cases event <;> simp only [Pending.passed]
  split <;> rfl

/-- A call that is still unclosed was not closed by the section. -/
theorem Pending.passed_unclosed (unclosed : (call.passed event).closed = false) :
    call.closed = false ∧ ∀ fd, event = .close fd → fd ≠ call.fd := by
  cases event with
  | close fd =>
      simp only [Pending.passed] at unclosed
      split at unclosed
      · cases unclosed
      · rename_i different
        refine ⟨unclosed, fun closed same => ?_⟩
        obtain rfl := Section.close.inj same
        exact Ne.symm different
  | _ => exact ⟨unclosed, nofun⟩

end Passed

namespace Tracked

variable {state next : Threads} {registry : Registry Int UInt32} {event : ThreadEvent}

/-- Every step of any thread keeps the unclosed calls on their ports. -/
theorem step (tracked : Tracked state registry) (taken : ThreadStep state event next) :
    ∃ later, Tracked next later := by
  obtain ⟨denotes, unclosed⟩ := tracked
  cases taken with
  | @enter contStr later calls call now fits dest entered active waiting fresh =>
      have budget := preOp_budget entered
      have found := Except.ok.inj ((denotes.destPort call.fd).symm.trans dest)
      exact ⟨registry, denotes.frame budget.sockets budget.ports,
        List.forall_mem_cons.mpr ⟨fun _ => found, unclosed⟩⟩
  | @libc contStr before after call moved waiting bounded =>
      exact ⟨registry, denotes, forall_replace unclosed (unclosed call (by simp))⟩
  | @finish contStr later before after call moved now result left =>
      have budget := leave_budget left
      exact ⟨registry, denotes.frame budget.sockets budget.ports, forall_remove unclosed⟩
  | @other contStr later calls event wrapper taken =>
      refine ⟨_, denotes.step taken wrapper.single, fun passed mem still => ?_⟩
      obtain ⟨call, inside, rfl⟩ := List.mem_map.mp mem
      obtain ⟨before, different⟩ := Pending.passed_unclosed still
      rw [Pending.passed_fd, Pending.passed_port]
      exact Section.dest_apply (unclosed call inside before) different

/-- A served call charges the port of its grant. -/
theorem charges (tracked : Tracked state registry) (taken : ThreadStep state event next)
    (served : state.Served event) : state.Charges event next := by
  cases taken with
  | @finish contStr later before after call moved now result left =>
      intro amount same positive
      obtain rfl := Option.some.inj (result.symm.trans same)
      have owed : 0 < call.uncharged := by simpa [Pending.uncharged, result] using positive
      have dest : getDestPort contStr.socStr call.fd = .ok (some call.port) := by
        rcases served owed with unclosed | dest
        · have found := tracked.unclosed call (by simp) unclosed
          exact (tracked.denotes.destPort call.fd).trans (congrArg _ found)
        · exact dest
      have found := Except.ok.inj ((tracked.denotes.destPort call.fd).symm.trans dest)
      obtain ⟨root, -, value⟩ := Registry.dest_eq_some.mp found
      obtain ⟨data, entry⟩ := Option.isSome_iff_exists.mp
        (tracked.denotes.served root call.port value)
      obtain ⟨other, run, -, ports⟩ := leave_spec dest entry call.flag positive now
      obtain rfl := Except.ok.inj (left.symm.trans run)
      exact ⟨⟨data, _, entry, by rw [ports, if_pos rfl],
          by rw [PortStruct.remaining_closed, if_pos rfl]⟩,
        fun q different => by rw [ports, if_neg different]⟩
  | _ => trivial

end Tracked

/-- In every run where each finished call with moved bytes is still served, every charge goes to the
port of its grant and to no other port. -/
theorem threadRun_charges {contStr : ControllerStruct} (reachable : ReachableWithoutDup contStr)
    {events : List ThreadEvent} {state : Threads}
    (run : Run (fun state event next => ThreadStep state event next ∧ state.Served event)
      ⟨contStr, []⟩ events state) :
    Run (fun state event next => ThreadStep state event next ∧ state.Charges event next)
      ⟨contStr, []⟩ events state := by
  obtain ⟨registry, denotes⟩ := reachable.denotes
  refine (run.history (fun events state => (∃ registry, Tracked state registry) ∧
    Run (fun state event next => ThreadStep state event next ∧ state.Charges event next)
      ⟨contStr, []⟩ events state) ⟨⟨registry, denotes, by simp⟩, .start⟩ ?_).2
  rintro events state event next ⟨⟨registry, tracked⟩, before⟩ ⟨taken, served⟩
  exact ⟨tracked.step taken, .step before ⟨taken, tracked.charges taken served⟩⟩

section Client

/-- Another thread closes the descriptor between the transfer and the charge and connects a new socket
with its number to the same port. -/
def reconnectedRead : List ThreadEvent :=
  [.enter clientRead ⟨1, 0⟩ false, .libc clientRead 5000, .other (.close 4),
    .other (.connect 4 ⟨afInet, 0, 80⟩), .finish { clientRead with moved := some 5000, closed := true } ⟨1, 5⟩]

theorem reconnectedRead_charged : ∃ state,
    Run (fun state event next => ThreadStep state event next ∧ state.Charges event next)
      ⟨clientConnection 5, []⟩ reconnectedRead state := by
  have entered : ThreadStep ⟨clientConnection 5, []⟩ (.enter clientRead ⟨1, 0⟩ false)
      ⟨clientConnection 5, [clientRead]⟩ := .enter (by decide) clientDest rfl rfl rfl rfl
  obtain ⟨freed, done, -, dest, found⟩ := clientConnection_close
  have closed : ThreadStep ⟨clientConnection 5, [clientRead.returned 5000]⟩ (.other (.close 4)) _ :=
    .other trivial (.close done)
  have connected : ThreadStep ⟨freed, [(clientRead.returned 5000).passed (.close 4)]⟩
    (.other (.connect 4 ⟨afInet, 0, 80⟩)) _ := .other trivial (.connect 4 ⟨afInet, 0, 80⟩)
  obtain ⟨last, left, -⟩ := leave_spec dest found true (show 0 < (5000 : Int) by decide) ⟨1, 5⟩
  let call : Pending := { clientRead with moved := some 5000, closed := true }
  have finished : ThreadStep ⟨connect freed 4 ⟨afInet, 0, 80⟩, [] ++ call :: []⟩
      (.finish call ⟨1, 5⟩) ⟨last, [] ++ []⟩ := .finish rfl left
  exact ⟨_, threadRun_charges (clientConnection_reachable 5) (.cons ⟨entered, trivial⟩
    (.cons ⟨clientRead_libc _ [] [], trivial⟩ (.cons ⟨closed, trivial⟩ (.cons ⟨connected, trivial⟩
      (.cons ⟨finished, fun _ => .inr dest⟩ .start)))))⟩

/-- A `close` between the transfer and the charge leaves the budget as it was. -/
theorem clientRead_uncharged :
    ¬∀ (contStr : ControllerStruct) (events : List ThreadEvent) (state next : Threads)
      (event : ThreadEvent), ReachableWithoutDup contStr →
      Run ThreadStep ⟨contStr, []⟩ events state → ThreadStep state event next →
      state.Charges event next := by
  intro assumed
  obtain ⟨registry, denotes⟩ := (clientConnection_reachable 5).denotes
  obtain ⟨middle, entered, -, found⟩ := clientRead_enter [] clientDest clientEntry
  obtain ⟨held, tracked⟩ := Tracked.step ⟨denotes, by simp⟩ entered
  obtain ⟨last, done, freed⟩ := tracked.denotes.close 4
  let call := (clientRead.returned 5000).passed (.close 4)
  have lost : getDestPort last.socStr 4 = .ok none :=
    (freed.destPort 4).trans (congrArg _ (Registry.dest_eq_none.mpr Registry.rootOf_detach_self))
  have finished : ThreadStep ⟨last, [] ++ call :: []⟩ (.finish call ⟨1, 5⟩) ⟨last, [] ++ []⟩ :=
    .finish rfl (leave_lost lost true 5000 ⟨1, 5⟩)
  have closed : ThreadStep ⟨middle, [clientRead.returned 5000]⟩ (.other (.close 4))
      ⟨last, [call]⟩ := .other trivial (.close done)
  have run : Run ThreadStep ⟨clientConnection 5, []⟩
      [.enter clientRead ⟨1, 0⟩ false, .libc clientRead 5000, .other (.close 4)] ⟨last, [call]⟩ :=
    .cons entered (.cons (clientRead_libc middle [] []) (.cons closed .start))
  obtain ⟨data, later, before, after, charged⟩ :=
    (assumed _ _ _ _ _ (clientConnection_reachable 5) run finished 5000 rfl (by decide)).entry
  have same : last.regEnvStr.get 80 = some (.ofLimits 80 5 5 0) := by rwa [close_env done]
  obtain rfl := Option.some.inj (before.symm.trans same)
  obtain rfl := Option.some.inj (after.symm.trans same)
  exact absurd charged (by decide)

end Client

end BandwidthLimiter
