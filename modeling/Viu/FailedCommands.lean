/-
# Commands that fail

A command that fails leaves the catalogs and the devices as they are only up to
the point where it registers its catalog. From there on a failure keeps the
catalog registered, and the command, issued again, finds it so. Where the
library, the catalog or the device is missing the code goes on with a value
that is not there, and a device that cannot be attached ends the daemon from
its own thread.

`failsCleanly_iff` says for each command exactly when none of this happens.
-/
import Viu.Daemon

namespace Viu
namespace Daemon

open Abrupt

variable {π : Type} {w : World π} {s s' : State π} {path name : String} {catalog : Catalog} {n : ℕ} {devDesc : Tree}
  {stop : Stop}

/-! ### When a command fails -/

def Unchanged (s s' : State π) : Prop := s'.plugins = s.plugins ∧ s'.virtualDevices = s.virtualDevices

/-- A failed command changes nothing and the daemon goes on; and wherever it would have
succeeded, it does so afterwards. -/
def FailsCleanly (w : World π) (cmd : Command) (s : State π) : Prop :=
  (execute w cmd s).1.succeeded = false →
    Unchanged s (execute w cmd s).2 ∧ (execute w cmd s).1.running = true ∧
      ∀ w' : World π, (execute w' cmd s).1.succeeded = true →
        (execute w' cmd (execute w cmd s).2).1.succeeded = true

/-- The options ask for more than help, and none is missing. -/
def Reaches (params : List String) (args : Args) (vm : VariablesMap) : Prop :=
  parseCommand args = .ok vm ∧ vm.help = false ∧ ∀ p ∈ params, vm.count p = true

/-- What comes of a mock device: the plugin that its factory makes, and the proxy. -/
def World.mockDevice (w : World π) (n : ℕ) (path name : String) (bcdUSB : U16) : Except Stop (Option π) :=
  w.factory path name n >>= fun plugin => (w.thread n).makeProxy bcdUSB >>= fun _ => .ok plugin

/-- What comes of a real device behind a proxy. -/
def World.proxyDevice (w : World π) (vid pid : U32) : Except Stop Unit :=
  w.libusb.makeDevice vid pid >>= fun dev => (w.thread 0).makeProxy (speed dev)

/-- And of one with a plugin. -/
def World.pluggedDevice (w : World π) (path name : String) (vid pid : U32) : Except Stop (Option π) :=
  w.factory path name 0 >>= fun plugin => w.proxyDevice vid pid >>= fun _ => .ok plugin

/-- It comes to a value, or to an exception that is caught. -/
def Harmless {α : Type} (x : Except Stop α) : Prop := ∀ stop, x = .error stop → stop.caught = true

def ProxyIntact (w : World π) (s : State π) (vid pid : U32) (catalogPath : String) : Prop :=
  if catalogPath = "" then Harmless (w.proxyDevice vid pid)
  else
    (s.plugins catalogPath).isSome ∨ (∃ stop, w.onPlug catalogPath = .stops stop ∧ stop.caught = true) ∨
      ∃ catalog name plugin, w.onPlug catalogPath = .plugged catalog ∧ catalog.entries[0]? = some name ∧
        w.pluggedDevice catalogPath name vid pid = .ok plugin

def MockIntact (w : World π) (s : State π) (deviceConfigPath catalogPath : String) : Prop :=
  ∀ devDesc, (w.config deviceConfigPath).load = .ok devDesc →
    (s.plugins catalogPath).isSome ∨ (∃ stop, w.onPlug catalogPath = .stops stop ∧ stop.caught = true) ∨
      ∃ catalog, w.onPlug catalogPath = .plugged catalog ∧ ∀ n name, catalog.entries[n]? = some name →
        ∃ plugin, w.mockDevice n catalogPath name devDesc.deviceDescriptor.bcdUSB = .ok plugin

def PlugIntact (w : World π) (s : State π) (configPath catalogPath deviceName : String) : Prop :=
  ∀ devDesc, (w.config configPath).load = .ok devDesc →
    ∃ catalog, s.plugins catalogPath = some catalog ∧ deviceName ∈ catalog.entries ∧
      Harmless (w.mockDevice 0 catalogPath deviceName devDesc.deviceDescriptor.bcdUSB)

/-- Nothing goes wrong behind the registration of a catalog, nothing is missing that
the code takes to be there, and no device's thread ends the daemon. -/
def Intact (w : World π) (s : State π) : Command → Prop
  | .proxydev args => ∀ vm, Reaches ["device"] args vm →
      ProxyIntact w s (vm.device.getD (0, 0)).1 (vm.device.getD (0, 0)).2 (vm.catalog.getD "")
  | .mock args => ∀ vm, Reaches ["config", "catalog"] args vm →
      MockIntact w s (vm.config.getD "") (vm.catalog.getD "")
  | .plug args => ∀ vm, Reaches ["config", "catalog", "device-name"] args vm →
      PlugIntact w s (vm.config.getD "") (vm.catalog.getD "") (vm.deviceName.getD "")

/-! ### A command's course depends on the catalogs only -/

theorem alike_plugins : Alike State.plugins Eq (plugins : Act π _) plugins := fun _ _ h => .ok h h

theorem alike_addPlugin : Alike State.plugins Eq (addPlugin name catalog : Act π Unit) (addPlugin name catalog) :=
  fun _ _ h => .ok rfl (congrArg (Function.update · name (some catalog)) h)

theorem alike_fetchAdd : Alike State.plugins (fun _ _ => True) (fetchAdd : Act π _) fetchAdd :=
  fun _ _ h => .ok trivial h

theorem alike_emplace (id id' : BitVec 64) (info : DeviceInfo π) :
    Alike State.plugins Eq (emplace id info) (emplace id' info) := fun _ _ h => .ok rfl h

theorem alike_lift {α : Type} (x : Except Stop α) : Alike State.plugins Eq (lift x : Act π α) (lift x) := by
  cases x with
  | ok a => exact .pure rfl
  | error e => exact .throw e

theorem alike_registerCatalog (w : World π) (name : String) :
    Alike State.plugins Eq (registerCatalog w name) (registerCatalog w name) := by
  refine alike_plugins.bindEq fun registered => ?_
  by_cases hreg : (registered name).isSome
  · rw [if_pos hreg]
    exact .pure rfl
  · rw [if_neg hreg]
    cases w.onPlug name with
    | missing => exact .throw _
    | stops stop => exact .throw _
    | plugged catalog => exact alike_addPlugin.bindEq fun _ => .pure rfl

theorem alike_device (w : World π) (n : ℕ) (path name : String) :
    Alike State.plugins Eq (device w n path name) (device w n path name) := by
  refine alike_plugins.bindEq fun registered => ?_
  cases registered path with
  | none => exact .pure rfl
  | some catalog =>
    dsimp only
    by_cases hname : name ∈ catalog.entries
    · rw [if_pos hname]
      exact (alike_lift _).bindEq fun _ => .pure rfl
    · rw [if_neg hname]
      exact .pure rfl

theorem alike_deref (vd : Except Error (Option π)) : Alike State.plugins Eq (deref vd) (deref vd) := by
  cases vd with
  | ok plugin => exact .pure rfl
  | error e => exact .throw _

theorem alike_createMockDeviceFromCatalog (w : World π) (n : ℕ) (path name : String) (devDesc : Tree) :
    Alike State.plugins Eq (createMockDeviceFromCatalog w n path name devDesc)
      (createMockDeviceFromCatalog w n path name devDesc) := by
  refine (alike_device w n path name).bindEq fun vd => ?_
  refine (alike_deref vd).bindEq fun plugin => ?_
  exact alike_fetchAdd.bind fun id id' _ => (alike_lift _).bindEq fun _ => alike_emplace id id' _

theorem alike_createProxyDeviceFromCatalog (w : World π) (vid pid : U32) (path name : String) :
    Alike State.plugins Eq (createProxyDeviceFromCatalog w vid pid path name)
      (createProxyDeviceFromCatalog w vid pid path name) := by
  refine (alike_device w 0 path name).bindEq fun vd => ?_
  refine (alike_deref vd).bindEq fun plugin => ?_
  refine (alike_lift _).bindEq fun dev => ?_
  exact alike_fetchAdd.bind fun id id' _ => (alike_lift _).bindEq fun _ => alike_emplace id id' _

theorem alike_createMockDevices (w : World π) (path : String) (devDesc : Tree) (names : List String) :
    ∀ n, Alike State.plugins Eq (createMockDevices w path devDesc n names)
      (createMockDevices w path devDesc n names) := by
  induction names with
  | nil => exact fun _ => .pure rfl
  | cons name names ih =>
    exact fun n => (alike_createMockDeviceFromCatalog w n path name devDesc).bindEq fun _ => ih (n + 1)

theorem alike_deviceName (catalog : Catalog) (n : ℕ) :
    Alike State.plugins Eq (deviceName catalog n : Act π String) (deviceName catalog n) := by
  unfold deviceName
  cases catalog.entries[n]? with
  | none => exact .throw _
  | some name => exact .pure rfl

theorem alike_appProxy (w : World π) (vid pid : U32) (path : String) :
    Alike State.plugins Eq (appProxy w vid pid path) (appProxy w vid pid path) := by
  unfold appProxy
  by_cases hpath : path = ""
  · rw [if_pos hpath]
    refine (alike_lift _).bindEq fun dev => ?_
    exact alike_fetchAdd.bind fun id id' _ => (alike_lift _).bindEq fun _ =>
      (alike_emplace id id' _).bindEq fun _ => .pure rfl
  · rw [if_neg hpath]
    refine (alike_registerCatalog w path).bindEq fun registered => ?_
    cases registered with
    | error e => exact .pure rfl
    | ok catalog =>
      refine (alike_deviceName catalog 0).bindEq fun name => ?_
      exact (alike_createProxyDeviceFromCatalog w vid pid path name).bindEq fun _ => .pure rfl

theorem alike_appMock (w : World π) (config path : String) :
    Alike State.plugins Eq (appMock w config path) (appMock w config path) := by
  refine (alike_lift _).bindEq fun devDesc => ?_
  refine (alike_registerCatalog w path).bindEq fun registered => ?_
  cases registered with
  | error e => exact .pure rfl
  | ok catalog =>
    exact (alike_createMockDevices w path devDesc catalog.entries 0).bindEq fun _ => .pure rfl

theorem alike_appPlug (w : World π) (config path name : String) :
    Alike State.plugins Eq (appPlug w config path name) (appPlug w config path name) := by
  refine (alike_lift _).bindEq fun devDesc => ?_
  exact (alike_createMockDeviceFromCatalog w 0 path name devDesc).bindEq fun _ => .pure rfl

theorem alike_runCommand {app : VariablesMap → Act π Response} (happ : ∀ vm, Alike State.plugins Eq (app vm) (app vm))
    (usage : String) (params : List String) (args : Args) :
    Alike State.plugins Eq (runCommand usage params app args) (runCommand usage params app args) := by
  refine (alike_lift _).bindEq fun vm => ?_
  by_cases hhelp : vm.help = true
  · rw [if_pos hhelp]
    exact .pure rfl
  · rw [if_neg hhelp]
    cases checkCliParams usage vm params with
    | error e => exact .pure rfl
    | ok u => exact happ vm

theorem alike_run (w : World π) (cmd : Command) : Alike State.plugins Eq (cmd.run w) (cmd.run w) := by
  cases cmd with
  | proxydev args => exact alike_runCommand (fun _ => alike_appProxy w _ _ _) _ _ args
  | mock args => exact alike_runCommand (fun _ => alike_appMock w _ _) _ _ args
  | plug args => exact alike_runCommand (fun _ => alike_appPlug w _ _ _) _ _ args

/-- The same catalogs, the same outcome. -/
theorem execute_congr (w : World π) (cmd : Command) (h : s.plugins = s'.plugins) :
    (execute w cmd s).1 = (execute w cmd s').1 := by
  have hends := alike_run w cmd s s' h
  unfold execute
  cases hs : cmd.run w s with
  | ok r t =>
    cases hs' : cmd.run w s' with
    | ok r' t' =>
      rw [hs, hs'] at hends
      cases hends with
      | ok hr _ => rw [hr]
    | error e t' =>
      rw [hs, hs'] at hends
      cases hends
  | error e t =>
    cases hs' : cmd.run w s' with
    | ok r' t' =>
      rw [hs, hs'] at hends
      cases hends
    | error e' t' =>
      rw [hs, hs'] at hends
      cases hends with
      | error _ => rfl

/-! ### What the steps do -/

/-- Of how a command ends, begun in `s`. -/
def Clean (s : State π) : EStateM.Result Stop (State π) Response → Prop
  | .ok r s' => r.isSuccess = false → Unchanged s s'
  | .error stop s' => stop.caught = true ∧ Unchanged s s'

theorem failsCleanly_iff_clean (w : World π) (cmd : Command) (s : State π) :
    FailsCleanly w cmd s ↔ Clean s (cmd.run w s) := by
  have hretry : ∀ s', Unchanged s s' → ∀ w' : World π, (execute w' cmd s).1.succeeded = true →
      (execute w' cmd s').1.succeeded = true := by
    intro s' hs' w' hok
    rwa [execute_congr w' cmd hs'.1]
  unfold FailsCleanly
  cases hr : cmd.run w s with
  | ok r s' =>
    have hex : execute w cmd s = (.responded r, s') := by simp only [execute, hr]
    rw [hex]
    exact ⟨fun h hfail => (h hfail).1, fun h hfail => ⟨h hfail, rfl, hretry s' (h hfail)⟩⟩
  | error stop s' =>
    have hex : execute w cmd s = (if stop.caught then .failed else .lost, s') := by simp only [execute, hr]
    rw [hex]
    by_cases hc : stop.caught = true
    · rw [if_pos hc]
      exact ⟨fun h => ⟨hc, (h rfl).1⟩, fun h _ => ⟨h.2, rfl, hretry s' h.2⟩⟩
    · rw [if_neg hc]
      exact iff_of_false (fun h => Bool.false_ne_true (h rfl).2.1) fun h => hc h.1

theorem unchanged_rfl (s : State π) : Unchanged s s := ⟨rfl, rfl⟩

theorem plugins_eq (s : State π) : plugins s = .ok s.plugins s := rfl

theorem lift_value {α : Type} {x : Except Stop α} {a : α} (h : x = .ok a) : lift x s = .ok a s := by
  rw [h]
  rfl

theorem lift_stop {α : Type} {x : Except Stop α} (h : x = .error stop) : lift x s = .error stop s := by
  rw [h]
  rfl

theorem lift_ok {α : Type} {x : Except Exn α} {a : α} (h : x = .ok a) : lift (x.mapError .threw) s = .ok a s :=
  lift_value (by rw [h]; rfl)

theorem lift_error {α : Type} {x : Except Exn α} {e : Exn} (h : x = .error e) :
    lift (x.mapError .threw) s = .error (.threw e) s := lift_stop (by rw [h]; rfl)

/-! The end of every construction: an id is taken and the proxy made. -/

/-- An id is taken. -/
def State.counted (s : State π) : State π := { s with deviceIdCounter := s.deviceIdCounter + 1 }

theorem makeProxy_ok {α : Type} {x : Except Stop Unit} {k : BitVec 64 → Act π α} (h : x = .ok ()) :
    (fetchAdd >>= fun id => lift x >>= fun _ => k id) s = k s.deviceIdCounter s.counted := by
  rw [h]
  rfl

theorem makeProxy_error {α : Type} {x : Except Stop Unit} {k : BitVec 64 → Act π α} (h : x = .error stop) :
    (fetchAdd >>= fun id => lift x >>= fun _ => k id) s = .error stop s.counted := by
  rw [h]
  rfl

/-- Where nothing has changed yet, only what is not caught does harm. -/
theorem clean_error_iff {α : Type} {x : Except Stop α} (h : x = .error stop) (hs : Unchanged s s') :
    Clean s (.error stop s') ↔ Harmless x := by
  constructor
  · rintro ⟨hcaught, -⟩ stop' h'
    rw [h] at h'
    cases h'
    exact hcaught
  · exact fun hx => ⟨hx stop h, hs⟩

theorem harmless_ok {α : Type} {x : Except Stop α} {a : α} (h : x = .ok a) : Harmless x := by
  intro stop hstop
  rw [h] at hstop
  cases hstop

/-- The state behind the registration of a catalog. -/
def State.plug (s : State π) (path : String) (catalog : Catalog) : State π :=
  { s with plugins := Function.update s.plugins path (some catalog) }

theorem plug_plugins (s : State π) (path : String) (catalog : Catalog) :
    (s.plug path catalog).plugins path = some catalog := Function.update_self ..

theorem plug_ne (h : ¬ (s.plugins path).isSome = true) : (s.plug path catalog).plugins ≠ s.plugins := by
  intro heq
  have hat := congrFun heq path
  rw [plug_plugins] at hat
  rw [← hat] at h
  exact h rfl

theorem registerCatalog_registered (h : (s.plugins path).isSome = true) :
    ∃ e, registerCatalog w path s = .ok (.error e) s := by
  refine ⟨⟨.catalog, 1, "Catalog " ++ path ++ " already registered"⟩, ?_⟩
  rw [registerCatalog, bind_ok (plugins_eq s), if_pos h]
  rfl

theorem registerCatalog_new (h : ¬ (s.plugins path).isSome = true) :
    registerCatalog w path s =
      match w.onPlug path with
      | .missing => .error .undefined s
      | .stops stop => .error stop s
      | .plugged catalog => .ok (.ok catalog) (s.plug path catalog) := by
  rw [registerCatalog, bind_ok (plugins_eq s), if_neg h]
  cases w.onPlug path <;> rfl

theorem createMock_missing (h : ∀ catalog, s.plugins path = some catalog → name ∉ catalog.entries) :
    createMockDeviceFromCatalog w n path name devDesc s = .error .undefined s := by
  have hdev : ∃ e, device w n path name s = .ok (.error e) s := by
    refine ⟨⟨.catalog, 0, ""⟩, ?_⟩
    rw [device, bind_ok (plugins_eq s)]
    cases hs : s.plugins path with
    | none => rfl
    | some catalog =>
      dsimp only
      rw [if_neg (h catalog hs)]
      rfl
  obtain ⟨e, hdev⟩ := hdev
  rw [createMockDeviceFromCatalog, bind_ok hdev]
  rfl

/-- A device that the catalog has is what its factory makes. -/
theorem device_eq (hs : s.plugins path = some catalog) (hname : name ∈ catalog.entries) :
    device w n path name s = (lift (w.factory path name n) >>= fun plugin => pure (.ok plugin)) s := by
  rw [device, bind_ok (plugins_eq s), hs]
  dsimp only
  rw [if_pos hname]

theorem device_ok {plugin : Option π} (hs : s.plugins path = some catalog) (hname : name ∈ catalog.entries)
    (h : w.factory path name n = .ok plugin) : device w n path name s = .ok (.ok plugin) s := by
  rw [device_eq hs hname, bind_ok (lift_value h)]
  rfl

theorem device_error (hs : s.plugins path = some catalog) (hname : name ∈ catalog.entries)
    (h : w.factory path name n = .error stop) : device w n path name s = .error stop s := by
  rw [device_eq hs hname, bind_error (lift_stop h)]

theorem deref_ok {plugin : Option π} (s : State π) : deref (.ok plugin) s = .ok plugin s := rfl

/-- Of a device the catalog has, its factory and the proxy decide. -/
theorem createMock_ok {plugin : Option π} (hs : s.plugins path = some catalog) (hname : name ∈ catalog.entries)
    (h : w.mockDevice n path name devDesc.deviceDescriptor.bcdUSB = .ok plugin) :
    ∃ s', createMockDeviceFromCatalog w n path name devDesc s = .ok () s' ∧ s'.plugins = s.plugins := by
  unfold World.mockDevice at h
  cases hfactory : w.factory path name n with
  | error stop =>
    rw [hfactory] at h
    cases h
  | ok plugin' =>
    cases hmake : (w.thread n).makeProxy devDesc.deviceDescriptor.bcdUSB with
    | error stop =>
      rw [hfactory, hmake] at h
      cases h
    | ok u =>
      rw [createMockDeviceFromCatalog, bind_ok (device_ok hs hname hfactory), bind_ok (deref_ok s), makeProxy_ok hmake]
      exact ⟨_, rfl, rfl⟩

theorem createMock_error (hs : s.plugins path = some catalog) (hname : name ∈ catalog.entries)
    (h : w.mockDevice n path name devDesc.deviceDescriptor.bcdUSB = .error stop) :
    ∃ s', createMockDeviceFromCatalog w n path name devDesc s = .error stop s' ∧ Unchanged s s' := by
  unfold World.mockDevice at h
  cases hfactory : w.factory path name n with
  | error stop' =>
    rw [hfactory] at h
    cases h
    exact ⟨s, by rw [createMockDeviceFromCatalog, bind_error (device_error hs hname hfactory)], unchanged_rfl s⟩
  | ok plugin =>
    cases hmake : (w.thread n).makeProxy devDesc.deviceDescriptor.bcdUSB with
    | error stop' =>
      rw [hfactory, hmake] at h
      cases h
      refine ⟨s.counted, ?_, rfl, rfl⟩
      rw [createMockDeviceFromCatalog, bind_ok (device_ok hs hname hfactory), bind_ok (deref_ok s),
        makeProxy_error hmake]
    | ok u =>
      rw [hfactory, hmake] at h
      cases h

/-! ### Behind the registration -/

theorem keeps_lift {α : Type} (x : Except Stop α) : Keeps State.plugins (lift x : Act π α) := by
  cases x with
  | ok a => exact .pure a
  | error e => exact .throw e

theorem keeps_device (w : World π) (n : ℕ) (path name : String) : Keeps State.plugins (device w n path name) := by
  refine Keeps.bind (fun _ => rfl) fun registered => ?_
  cases registered path with
  | none => exact .pure _
  | some catalog =>
    dsimp only
    by_cases hname : name ∈ catalog.entries
    · rw [if_pos hname]
      exact (keeps_lift _).bind fun _ => .pure _
    · rw [if_neg hname]
      exact .pure _

theorem keeps_deref (vd : Except Error (Option π)) : Keeps State.plugins (deref vd) := by
  cases vd with
  | ok plugin => exact .pure plugin
  | error e => exact .throw _

theorem keeps_createMockDevices (w : World π) (path : String) (devDesc : Tree) (names : List String) :
    ∀ n, Keeps State.plugins (createMockDevices w path devDesc n names) := by
  induction names with
  | nil => exact fun _ => .pure ()
  | cons name names ih =>
    intro n
    refine Keeps.bind ?_ fun _ => ih (n + 1)
    exact (keeps_device w n path name).bind fun vd => (keeps_deref vd).bind fun _ =>
      Keeps.bind (fun _ => rfl) fun _ => (keeps_lift _).bind fun _ _ => rfl

theorem keeps_createProxyDeviceFromCatalog (w : World π) (vid pid : U32) (path name : String) :
    Keeps State.plugins (createProxyDeviceFromCatalog w vid pid path name) :=
  (keeps_device w 0 path name).bind fun vd => (keeps_deref vd).bind fun _ => (keeps_lift _).bind fun _ =>
    Keeps.bind (fun _ => rfl) fun _ => (keeps_lift _).bind fun _ _ => rfl

/-- Once the catalogs have changed, nothing but success is clean. -/
theorem clean_of_changed {x : Act π Response} (hx : Keeps State.plugins x) (hne : s'.plugins ≠ s.plugins) :
    Clean s (x s') ↔ ∃ r t, x s' = .ok r t ∧ r.isSuccess = true := by
  have hk := hx s'
  cases hr : x s' with
  | ok r t =>
    rw [hr] at hk
    have ht : t.plugins ≠ s.plugins := fun h => hne (hk.symm.trans h)
    constructor
    · intro h
      refine ⟨r, t, rfl, ?_⟩
      by_contra hfail
      exact ht (h (Bool.eq_false_iff.mpr hfail)).1
    · rintro ⟨r', t', heq, hok⟩
      cases heq
      intro hfail
      rw [hok] at hfail
      cases hfail
  | error stop t =>
    rw [hr] at hk
    refine iff_of_false (fun h => hne (hk.symm.trans h.2.1)) ?_
    rintro ⟨r, t', heq, -⟩
    cases heq

/-- The loop gets through exactly when each device is made. -/
theorem createMockDevices_ok_iff {names : List String} (hs : s.plugins path = some catalog)
    (hnames : ∀ name ∈ names, name ∈ catalog.entries) : (∃ s', createMockDevices w path devDesc n names s = .ok () s') ↔
      ∀ i name, names[i]? = some name →
        ∃ plugin, w.mockDevice (n + i) path name devDesc.deviceDescriptor.bcdUSB = .ok plugin := by
  induction names generalizing n s with
  | nil => exact iff_of_true ⟨s, rfl⟩ fun i name h => nomatch h
  | cons name names ih =>
    obtain ⟨hname, hrest⟩ := List.forall_mem_cons.mp hnames
    rw [createMockDevices]
    cases hmake : w.mockDevice n path name devDesc.deviceDescriptor.bcdUSB with
    | error stop =>
      obtain ⟨t, ht, -⟩ := createMock_error hs hname hmake
      rw [bind_error ht]
      refine iff_of_false ?_ fun h => ?_
      · rintro ⟨s', h⟩
        cases h
      · obtain ⟨plugin, hzero⟩ := h 0 name rfl
        rw [Nat.add_zero, hmake] at hzero
        cases hzero
    | ok plugin =>
      obtain ⟨t, ht, htp⟩ := createMock_ok hs hname hmake
      rw [bind_ok ht, ih (htp ▸ hs) hrest]
      constructor
      · intro h i name' hi
        cases i with
        | zero =>
          rw [← Option.some.inj hi]
          exact ⟨plugin, hmake⟩
        | succ i =>
          rw [show n + (i + 1) = n + 1 + i by omega]
          exact h i name' hi
      · intro h i name' hi
        rw [show n + 1 + i = n + (i + 1) by omega]
        exact h (i + 1) name' hi

theorem succeeds_iff {x : Act π Unit} {r : Response} (hr : r.isSuccess = true) :
    (∃ r' t, (x >>= fun _ => pure r) s = .ok r' t ∧ r'.isSuccess = true) ↔ ∃ t, x s = .ok () t := by
  cases hx : x s with
  | ok u t =>
    rw [bind_ok hx]
    exact iff_of_true ⟨r, t, rfl, hr⟩ ⟨t, rfl⟩
  | error stop t =>
    rw [bind_error hx]
    refine iff_of_false ?_ ?_
    · rintro ⟨r', t', heq, -⟩
      cases heq
    · rintro ⟨t', heq⟩
      cases heq

/-- A command that registers its catalog is clean if it gets no further than that, and
otherwise if it succeeds. -/
theorem clean_register_iff {k : Except Error Catalog → Act π Response}
    (hfail : ∀ e, k (.error e) = pure (.failure e.message e)) (hk : ∀ catalog, Keeps State.plugins (k (.ok catalog))) :
    Clean s ((registerCatalog w path >>= k) s) ↔
      (s.plugins path).isSome ∨ (∃ stop, w.onPlug path = .stops stop ∧ stop.caught = true) ∨
        ∃ catalog, w.onPlug path = .plugged catalog ∧
          ∃ r t, k (.ok catalog) (s.plug path catalog) = .ok r t ∧ r.isSuccess = true := by
  by_cases hreg : (s.plugins path).isSome = true
  · obtain ⟨e, he⟩ := registerCatalog_registered (w := w) hreg
    rw [bind_ok he, hfail]
    exact iff_of_true (fun _ => unchanged_rfl s) (.inl hreg)
  · have hnew := registerCatalog_new (w := w) hreg
    cases hplug : w.onPlug path with
    | missing =>
      rw [hplug] at hnew
      rw [bind_error hnew]
      refine iff_of_false (fun h => Bool.false_ne_true h.1) ?_
      rintro (h | ⟨stop, h, -⟩ | ⟨catalog, h, -⟩)
      · exact hreg h
      · cases h
      · cases h
    | stops stop =>
      rw [hplug] at hnew
      rw [bind_error hnew]
      constructor
      · exact fun h => .inr (.inl ⟨stop, rfl, h.1⟩)
      · rintro (h | ⟨stop', h, hcaught⟩ | ⟨catalog, h, -⟩)
        · exact absurd h hreg
        · cases h
          exact ⟨hcaught, unchanged_rfl s⟩
        · cases h
    | plugged catalog =>
      rw [hplug] at hnew
      rw [bind_ok hnew, clean_of_changed (hk catalog) (plug_ne hreg)]
      constructor
      · exact fun h => .inr (.inr ⟨catalog, rfl, h⟩)
      · rintro (h | ⟨stop, h, -⟩ | ⟨catalog', h, hok⟩)
        · exact absurd h hreg
        · cases h
        · cases h
          exact hok

/-! ### The commands -/

theorem load_ok {config : String} (h : (w.config config).load = .ok devDesc) : load w config s = .ok devDesc s := by
  rw [load, h]
  rfl

theorem load_error {config : String} {e : LoadExn} (h : (w.config config).load = .error e) :
    load w config s = .error (.badConfig e) s := by
  rw [load, h]
  rfl

/-- A configuration that does not load stops a command at its start. -/
theorem clean_load_iff {config : String} {k : Tree → Act π Response} :
    Clean s ((load w config >>= k) s) ↔ ∀ devDesc, (w.config config).load = .ok devDesc → Clean s (k devDesc s) := by
  cases hload : (w.config config).load with
  | error e =>
    rw [bind_error (load_error hload)]
    refine iff_of_true ⟨rfl, unchanged_rfl s⟩ fun devDesc h => ?_
    cases h
  | ok devDesc =>
    rw [bind_ok (load_ok hload)]
    constructor
    · intro h devDesc' heq
      cases heq
      exact h
    · exact fun h => h devDesc rfl

theorem clean_appMock_iff (w : World π) (s : State π) (config path : String) :
    Clean s (appMock w config path s) ↔ MockIntact w s config path := by
  rw [appMock, clean_load_iff]
  refine forall_congr' fun devDesc => imp_congr_right fun _ => ?_
  rw [clean_register_iff (fun _ => rfl) fun catalog =>
    (keeps_createMockDevices w path devDesc catalog.entries 0).bind fun _ => .pure _]
  refine or_congr_right (or_congr_right (exists_congr fun catalog => and_congr_right fun _ => ?_))
  dsimp only
  rw [succeeds_iff rfl, createMockDevices_ok_iff (plug_plugins s path catalog) fun _ h => h]
  simp only [Nat.zero_add]

theorem clean_appPlug_iff (w : World π) (s : State π) (config path name : String) :
    Clean s (appPlug w config path name s) ↔ PlugIntact w s config path name := by
  rw [appPlug, clean_load_iff]
  refine forall_congr' fun devDesc => imp_congr_right fun _ => ?_
  by_cases hdev : ∃ catalog, s.plugins path = some catalog ∧ name ∈ catalog.entries
  · obtain ⟨catalog, hs, hname⟩ := hdev
    have hiff : (∃ catalog, s.plugins path = some catalog ∧ name ∈ catalog.entries ∧
        Harmless (w.mockDevice 0 path name devDesc.deviceDescriptor.bcdUSB)) ↔
          Harmless (w.mockDevice 0 path name devDesc.deviceDescriptor.bcdUSB) :=
      ⟨fun ⟨_, _, _, h⟩ => h, fun h => ⟨catalog, hs, hname, h⟩⟩
    rw [hiff]
    cases hmake : w.mockDevice 0 path name devDesc.deviceDescriptor.bcdUSB with
    | ok plugin =>
      obtain ⟨t, ht, -⟩ := createMock_ok hs hname hmake
      rw [bind_ok ht]
      exact iff_of_true (fun h => nomatch h) (harmless_ok rfl)
    | error stop =>
      obtain ⟨t, ht, hunchanged⟩ := createMock_error hs hname hmake
      rw [bind_error ht]
      exact clean_error_iff rfl hunchanged
  · rw [bind_error (createMock_missing fun catalog hs hname => hdev ⟨catalog, hs, hname⟩)]
    refine iff_of_false (fun h => Bool.false_ne_true h.1) ?_
    rintro ⟨catalog, hs, hname, -⟩
    exact hdev ⟨catalog, hs, hname⟩

/-- The device of a proxy, before an id is taken for it, and the proxy. -/
theorem proxyDevice_ok {α : Type} {k : BitVec 64 → Act π α} {vid pid : U32} (h : w.proxyDevice vid pid = .ok ()) :
    (lift (w.libusb.makeDevice vid pid) >>= fun dev =>
      fetchAdd >>= fun id => lift ((w.thread 0).makeProxy (speed dev)) >>= fun _ => k id) s =
        k s.deviceIdCounter s.counted := by
  unfold World.proxyDevice at h
  cases hdev : w.libusb.makeDevice vid pid with
  | error stop =>
    rw [hdev] at h
    cases h
  | ok dev =>
    have hmake : (w.thread 0).makeProxy (speed dev) = .ok () := by rwa [hdev] at h
    rw [bind_ok (lift_value rfl), makeProxy_ok hmake]

theorem proxyDevice_error {α : Type} {k : BitVec 64 → Act π α} {vid pid : U32}
    (h : w.proxyDevice vid pid = .error stop) :
    ∃ s', (lift (w.libusb.makeDevice vid pid) >>= fun dev =>
      fetchAdd >>= fun id => lift ((w.thread 0).makeProxy (speed dev)) >>= fun _ => k id) s = .error stop s' ∧
        Unchanged s s' := by
  unfold World.proxyDevice at h
  cases hdev : w.libusb.makeDevice vid pid with
  | error stop' =>
    rw [hdev] at h
    cases h
    exact ⟨s, by rw [bind_error (lift_stop rfl)], unchanged_rfl s⟩
  | ok dev =>
    have hmake : (w.thread 0).makeProxy (speed dev) = .error stop := by rwa [hdev] at h
    exact ⟨s.counted, by rw [bind_ok (lift_value rfl), makeProxy_error hmake], rfl, rfl⟩

theorem createProxy_ok_iff {vid pid : U32} (hs : s.plugins path = some catalog) (hname : name ∈ catalog.entries) :
    (∃ t, createProxyDeviceFromCatalog w vid pid path name s = .ok () t) ↔
      ∃ plugin, w.pluggedDevice path name vid pid = .ok plugin := by
  unfold World.pluggedDevice createProxyDeviceFromCatalog
  cases hfactory : w.factory path name 0 with
  | error stop =>
    rw [bind_error (device_error hs hname hfactory)]
    refine iff_of_false ?_ ?_
    · rintro ⟨t, h⟩
      cases h
    · rintro ⟨plugin, h⟩
      cases h
  | ok plugin =>
    rw [bind_ok (device_ok hs hname hfactory), bind_ok (deref_ok s)]
    cases hdev : w.proxyDevice vid pid with
    | ok u =>
      rw [proxyDevice_ok hdev]
      exact iff_of_true ⟨_, rfl⟩ ⟨plugin, rfl⟩
    | error stop =>
      obtain ⟨s', hs', -⟩ := proxyDevice_error hdev
      rw [hs']
      refine iff_of_false ?_ ?_
      · rintro ⟨t, h⟩
        cases h
      · rintro ⟨plugin', h⟩
        cases h

/-- Without a catalog nothing is registered before the device is there. -/
theorem clean_appProxy_plain_iff (w : World π) (s : State π) (vid pid : U32) :
    Clean s (appProxy w vid pid "" s) ↔ Harmless (w.proxyDevice vid pid) := by
  unfold appProxy
  rw [if_pos rfl]
  cases hdev : w.proxyDevice vid pid with
  | ok u =>
    rw [proxyDevice_ok hdev]
    exact iff_of_true (fun h => nomatch h) (harmless_ok rfl)
  | error stop =>
    obtain ⟨s', hs', hunchanged⟩ := proxyDevice_error hdev
    rw [hs']
    exact clean_error_iff rfl hunchanged

theorem deviceName_nil (h : catalog.entries = []) : deviceName catalog n s = .error .undefined s := by
  rw [deviceName, h]
  rfl

theorem deviceName_zero {names : List String} (h : catalog.entries = name :: names) :
    deviceName catalog 0 s = .ok name s := by
  rw [deviceName, h]
  rfl

theorem keeps_deviceName (catalog : Catalog) (n : ℕ) : Keeps State.plugins (deviceName catalog n : Act π String) := by
  unfold deviceName
  cases catalog.entries[n]? with
  | none => exact .throw _
  | some name => exact .pure name

theorem clean_appProxy_iff (w : World π) (s : State π) (vid pid : U32) (path : String) :
    Clean s (appProxy w vid pid path s) ↔ ProxyIntact w s vid pid path := by
  unfold ProxyIntact
  by_cases hpath : path = ""
  · rw [if_pos hpath, hpath]
    exact clean_appProxy_plain_iff w s vid pid
  rw [if_neg hpath, appProxy, if_neg hpath, clean_register_iff (fun _ => rfl) fun catalog =>
    (keeps_deviceName catalog 0).bind fun name =>
      (keeps_createProxyDeviceFromCatalog w vid pid path name).bind fun _ => .pure _]
  refine or_congr_right (or_congr_right (exists_congr fun catalog => ?_))
  dsimp only
  cases hentries : catalog.entries with
  | nil =>
    rw [bind_error (deviceName_nil hentries)]
    refine iff_of_false ?_ ?_
    · rintro ⟨-, r, t, h, -⟩
      cases h
    · rintro ⟨name, plugin, -, h, -⟩
      cases h
  | cons name names =>
    have hmem : name ∈ catalog.entries := by simp [hentries]
    rw [bind_ok (deviceName_zero hentries), succeeds_iff rfl,
      createProxy_ok_iff (plug_plugins s path catalog) hmem]
    constructor
    · rintro ⟨hplug, plugin, hdev⟩
      exact ⟨name, plugin, hplug, rfl, hdev⟩
    · rintro ⟨name', plugin, hplug, hname', hdev⟩
      cases hname'
      exact ⟨hplug, plugin, hdev⟩

theorem checkCliParams_eq (usage : String) (vm : VariablesMap) (params : List String) :
    checkCliParams usage vm params = .ok () ↔ ∀ p ∈ params, vm.count p = true := by
  have hmissing : (params.filter fun p => !vm.count p) = [] ↔ ∀ p ∈ params, vm.count p = true := by simp
  rw [← hmissing, checkCliParams]
  by_cases h : (params.filter fun p => !vm.count p) = []
  · rw [if_pos h]
    exact iff_of_true rfl h
  · rw [if_neg h]
    exact iff_of_false (fun h' => nomatch h') h

/-- Help, an error in the arguments and a missing option change nothing. -/
theorem clean_runCommand_iff {app : VariablesMap → Act π Response} (usage : String) (params : List String)
    (args : Args) : Clean s (runCommand usage params app args s) ↔
      ∀ vm, Reaches params args vm → Clean s (app vm s) := by
  unfold runCommand Reaches
  cases hparse : parseCommand args with
  | error e =>
    rw [bind_error (lift_error rfl)]
    refine iff_of_true ⟨rfl, unchanged_rfl s⟩ ?_
    rintro vm ⟨h, -⟩
    cases h
  | ok vm =>
    rw [bind_ok (lift_ok rfl)]
    by_cases hhelp : vm.help = true
    · rw [if_pos hhelp]
      refine iff_of_true (fun h => nomatch h) ?_
      rintro vm' ⟨h, hhelp', -⟩
      cases h
      rw [hhelp] at hhelp'
      cases hhelp'
    · rw [if_neg hhelp]
      cases hcheck : checkCliParams usage vm params with
      | error e =>
        refine iff_of_true (fun _ => unchanged_rfl s) ?_
        rintro vm' ⟨h, -, hall⟩
        cases h
        rw [(checkCliParams_eq usage vm params).mpr hall] at hcheck
        cases hcheck
      | ok u =>
        have hall := (checkCliParams_eq usage vm params).mp hcheck
        constructor
        · rintro h vm' ⟨heq, -, -⟩
          cases heq
          exact h
        · exact fun h => h vm ⟨rfl, Bool.eq_false_iff.mpr hhelp, hall⟩

/-- **Failed commands** change nothing, leave the daemon running and can be issued again
exactly when nothing goes wrong behind the registration of a catalog, nothing is
missing that the code takes to be there, and no device's thread ends the
daemon. -/
theorem failsCleanly_iff (w : World π) (cmd : Command) (s : State π) : FailsCleanly w cmd s ↔ Intact w s cmd := by
  rw [failsCleanly_iff_clean]
  cases cmd with
  | proxydev args =>
    refine (clean_runCommand_iff ..).trans (forall_congr' fun vm => imp_congr_right fun _ => ?_)
    exact clean_appProxy_iff ..
  | mock args =>
    refine (clean_runCommand_iff ..).trans (forall_congr' fun vm => imp_congr_right fun _ => ?_)
    exact clean_appMock_iff ..
  | plug args =>
    refine (clean_runCommand_iff ..).trans (forall_congr' fun vm => imp_congr_right fun _ => ?_)
    exact clean_appPlug_iff ..

/-- One device on the bus, which cannot be opened, and a catalog with one device. -/
def World.unopenable : World Unit where
  onPlug _ := .plugged ⟨"catalog", "1", ["device"]⟩
  factory _ _ _ := .ok (some ())
  config _ := .text []
  libusb := ⟨LIBUSB_SUCCESS, .ok [⟨LibusbDeviceDescriptor.mk 18 1 0x200 0 0 0 64 0x1234 0x5678 0 0 0 0 1,
    LIBUSB_ERROR_OTHER, some 1, fun _ => LIBUSB_SUCCESS⟩]⟩
  thread _ := ⟨.ok (), [], [], false⟩
  usage _ := ""

/-- `proxydev --device 1234:5678 --catalog /catalog.so`. -/
def proxydevOpened : Command :=
  .proxydev (.parsed ⟨false, some (0x1234, 0x5678), none, some "/catalog.so", none⟩)

/-- The catalog stays registered. -/
theorem proxydev_leaves_catalog : ¬ ∀ (w : World Unit) (cmd : Command), FailsCleanly w cmd (State.init Unit) := by
  intro h
  obtain ⟨⟨hplugins, -⟩, -⟩ := h .unopenable proxydevOpened rfl
  have hleft : ((execute .unopenable proxydevOpened (State.init Unit)).2.plugins "/catalog.so").isSome = true := rfl
  rw [hplugins] at hleft
  cases hleft

end Daemon
end Viu
