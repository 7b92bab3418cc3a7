import TableAlgebra.Proofs.Config.Settings
import TableAlgebra.Proofs.Config.Words

/-!
# Variables before the file

Each setting has its own variable.  Where that is set, its text says what the setting is, and else the file does; no
other variable counts.  Only the variables of the dialect and of the flag can be set to a text that says nothing, and
then there are no settings at all, only an error about the first of the two.

* `Variable.Means`                 what the text of a variable says;
* `Variable.Settled`               a setting comes from its variable where that is set, and else from the file;
* `Environment.Refused`            the variable that an error is about;
* `Variable.ReadBy`                the function that reads a variable finds what its text says;
* `Config.override_eq_ok`          what settings come out;
* `Config.exists_override_eq_error`  when there are none, and what the error is about.
-/

namespace TableAlgebra

/-! ## what variables say -/

/-- the text of a variable says that its setting is `s` -/
def Variable.Means : Variable → String → Setting → Prop
  | dialect, text, s => ∃ d : Dialect, d.Named text ∧ s = .dialect d
  | dropExisting, text, s => ∃ value, Says value text ∧ s = .flag value
  | _, text, s => s = .text text

/-- the setting comes from its variable where that is set, and else from the file -/
def Variable.Settled (v : Variable) (env : Environment) (file loaded : Config) : Prop :=
  match env.get? v with
  | some text => v.Means text (loaded.setting v)
  | none => loaded.setting v = file.setting v

/-- the variable is set to a text that says nothing -/
def Environment.Unreadable (env : Environment) (v : Variable) : Prop :=
  ∃ text, env.get? v = some text ∧ ∀ s, ¬ v.Means text s

/-- the variable that an error is about: that of the dialect if it is unreadable, or else that of the flag -/
def Environment.Refused (env : Environment) : Variable → Prop
  | .dialect => env.Unreadable .dialect
  | .dropExisting => ¬ env.Unreadable .dialect ∧ env.Unreadable .dropExisting
  | _ => False

def ConfigError.variable? : ConfigError → Option Variable
  | unreadable => none
  | malformed => none
  | unknownDialect _ => some .dialect
  | notFlag _ => some .dropExisting

/-- the wording of an error about a variable begins with its name -/
theorem ConfigError.message?_of_variable? {e : ConfigError} {v : Variable} (h : e.variable? = some v) :
    ∃ reason, e.message? = some ("Invalid value for " ++ v.name ++ ": " ++ reason) := by
  cases e with
  | unreadable => cases h
  | malformed => cases h
  | unknownDialect lower =>
    obtain rfl := Option.some.inj h
    exact ⟨Dialect.unknownMessage lower, rfl⟩
  | notFlag text =>
    obtain rfl := Option.some.inj h
    have hcut : ": expected a boolean, found '" = ": " ++ "expected a boolean, found '" := rfl
    refine ⟨"expected a boolean, found '" ++ text ++ "'", ?_⟩
    show some ("Invalid value for " ++ Variable.dropExisting.name ++ ": expected a boolean, found '" ++ text ++ "'")
      = some _
    rw [hcut]
    simp only [String.append_assoc]

/-! ## how variables are read -/

/-- The variable is read by a function that finds what its text says, as the value of its setting, or else an error
about the variable. -/
structure Variable.ReadBy {α : Type} (v : Variable) (read : String → Except ConfigError α) (setting : α → Setting) :
    Prop where
  means_iff : ∀ {text s}, v.Means text s ↔ ∃ a, read text = .ok a ∧ s = setting a
  names : ∀ {text e}, read text = .error e → e.variable? = some v
  inj : ∀ {a b}, setting a = setting b → a = b

theorem readBy_dialect : Variable.dialect.ReadBy readDialect .dialect where
  means_iff := by simp only [Variable.Means, readDialect_eq_ok, implies_true]
  names h := (readDialect_eq_error.mp h).1 ▸ rfl
  inj := Setting.dialect.inj

theorem readBy_dropExisting : Variable.dropExisting.ReadBy readFlag .flag where
  means_iff := by simp only [Variable.Means, readFlag_eq_ok, implies_true]
  names h := (readFlag_eq_error.mp h).1 ▸ rfl
  inj := Setting.flag.inj

theorem readBy_text {v : Variable} (hv : v ≠ .dialect ∧ v ≠ .dropExisting) : v.ReadBy .ok .text where
  means_iff := by cases v <;> simp_all [Variable.Means]
  names h := nomatch h
  inj := Setting.text.inj

namespace Variable.ReadBy

variable {α : Type} {v : Variable} {read : String → Except ConfigError α} {setting : α → Setting}
variable {env : Environment} {file loaded : Config} {current a : α}

theorem unique (h : v.ReadBy read setting) {text : String} {s t : Setting} (hs : v.Means text s)
    (ht : v.Means text t) : s = t := by
  obtain ⟨a, ha, rfl⟩ := h.means_iff.mp hs
  obtain ⟨b, hb, rfl⟩ := h.means_iff.mp ht
  rw [Except.ok.inj (ha.symm.trans hb)]

theorem settled_iff (h : v.ReadBy read setting) (hfile : file.setting v = setting current)
    (hloaded : loaded.setting v = setting a) : v.Settled env file loaded ↔ env.override v read current = .ok a := by
  unfold Settled Environment.override
  rw [hfile, hloaded]
  cases env.get? v with
  | none => exact ⟨fun heq => by rw [h.inj heq], fun heq => by rw [Except.ok.inj heq]⟩
  | some text =>
    refine h.means_iff.trans ⟨fun ⟨b, hb, heq⟩ => h.inj heq ▸ hb, fun ha => ⟨a, ha, rfl⟩⟩

theorem unreadable_iff (h : v.ReadBy read setting) (current : α) :
    env.Unreadable v ↔ ∃ e, env.override v read current = .error e := by
  have htext (text : String) : (∀ s, ¬ v.Means text s) ↔ ∃ e, read text = .error e := by
    simp only [h.means_iff]
    cases read text <;> simp
  unfold Environment.Unreadable Environment.override
  cases env.get? v <;> simp [htext]

theorem variable_eq (h : v.ReadBy read setting) {e : ConfigError} (he : env.override v read current = .error e) :
    e.variable? = some v := by
  unfold Environment.override at he
  split at he
  · exact h.names he
  · cases he

end Variable.ReadBy

namespace Variable

variable {v : Variable}

/-- what a setting comes to depends on its own variable and on the file -/
theorem Settled.unique {env env' : Environment} {file loaded loaded' : Config} (henv : env.get? v = env'.get? v)
    (h : v.Settled env file loaded) (h' : v.Settled env' file loaded') : loaded.setting v = loaded'.setting v := by
  unfold Settled at h h'
  rw [henv] at h
  cases htext : env'.get? v with
  | none =>
    rw [htext] at h h'
    exact h.trans h'.symm
  | some text =>
    rw [htext] at h h'
    cases v with
    | dialect => exact readBy_dialect.unique h h'
    | dropExisting => exact readBy_dropExisting.unique h h'
    | databaseUrl | level | format | output | directory => exact (readBy_text (by decide)).unique h h'

end Variable

/-! ## all variables -/

theorem Environment.override_text (env : Environment) (v : Variable) (current : String) :
    env.override v .ok current = .ok ((env.get? v).getD current) := by
  unfold override
  cases env.get? v <;> rfl

namespace Config

variable {env : Environment} {file loaded : Config} {e : ConfigError}

theorem override_eq_ok : file.override env = .ok loaded ↔ ∀ v : Variable, v.Settled env file loaded := by
  -- two settings come through their readers, the other five are put together from the texts as they are
  unfold override
  simp only [bind_eq_ok]
  constructor
  · rintro ⟨dialect, hdialect, dropExisting, hdrop, h⟩ v
    obtain rfl := Except.ok.inj h
    cases v with
    | dialect => exact (readBy_dialect.settled_iff rfl rfl).mpr hdialect
    | dropExisting => exact (readBy_dropExisting.settled_iff rfl rfl).mpr hdrop
    | databaseUrl | level | format | output | directory =>
      exact ((readBy_text (by decide)).settled_iff rfl rfl).mpr (env.override_text _ _)
  · intro h
    have htext {v : Variable} {before after : String} (hv : v ≠ .dialect ∧ v ≠ .dropExisting)
        (hfile : file.setting v = .text before) (hloaded : loaded.setting v = .text after) :
        (env.get? v).getD before = after := by
      have hoverride := ((readBy_text hv).settled_iff hfile hloaded).mp (h v)
      rw [Environment.override_text] at hoverride
      exact Except.ok.inj hoverride
    refine ⟨_, (readBy_dialect.settled_iff rfl rfl).mp (h .dialect), _,
      (readBy_dropExisting.settled_iff rfl rfl).mp (h .dropExisting), ?_⟩
    have hurl : (env.get? .databaseUrl).getD file.database.url = loaded.database.url := htext (by decide) rfl rfl
    have hlogging : file.logging.override env = loaded.logging := by
      unfold LoggingConfig.override
      congr
      · exact htext (v := .level) (by decide) rfl rfl
      · exact htext (v := .format) (by decide) rfl rfl
      · exact htext (v := .output) (by decide) rfl rfl
      · exact htext (v := .directory) (by decide) rfl rfl
    rw [hurl, hlogging]
    rfl

theorem logging_of_override (h : file.override env = .ok loaded) : file.logging.override env = loaded.logging := by
  unfold override at h
  obtain ⟨_, -, h⟩ := bind_eq_ok.mp h
  obtain ⟨_, -, h⟩ := bind_eq_ok.mp h
  exact congrArg logging (Except.ok.inj h)

/-- the dialect is looked at first -/
theorem override_eq_error : file.override env = .error e ↔
    env.override .dialect readDialect file.database.dialect = .error e ∨
      (∃ d, env.override .dialect readDialect file.database.dialect = .ok d) ∧
        env.override .dropExisting readFlag file.database.dropExisting = .error e := by
  unfold override
  rw [bind_eq_error]
  refine or_congr_right ?_
  rw [← exists_and_right]
  refine exists_congr fun d => and_congr_right fun _ => ?_
  rw [bind_eq_error]
  exact or_iff_left fun ⟨_, _, h⟩ => nomatch h

theorem exists_override_eq_error {v : Variable} :
    (∃ e, file.override env = .error e ∧ e.variable? = some v) ↔ env.Refused v := by
  have hdialect : env.Unreadable .dialect ↔ _ := readBy_dialect.unreadable_iff file.database.dialect
  have hdrop : env.Unreadable .dropExisting ↔ _ := readBy_dropExisting.unreadable_iff file.database.dropExisting
  constructor
  · rintro ⟨e, he, hv⟩
    rcases override_eq_error.mp he with hfail | ⟨⟨d, hd⟩, hfail⟩
    · obtain rfl := Option.some.inj ((readBy_dialect.variable_eq hfail).symm.trans hv)
      exact hdialect.mpr ⟨e, hfail⟩
    · obtain rfl := Option.some.inj ((readBy_dropExisting.variable_eq hfail).symm.trans hv)
      refine ⟨fun hunreadable => ?_, hdrop.mpr ⟨e, hfail⟩⟩
      obtain ⟨e', he'⟩ := hdialect.mp hunreadable
      exact nomatch hd.symm.trans he'
  · cases v with
    | dialect =>
      intro h
      obtain ⟨e, he⟩ := hdialect.mp h
      exact ⟨e, override_eq_error.mpr (.inl he), readBy_dialect.variable_eq he⟩
    | dropExisting =>
      rintro ⟨hreadable, hunreadable⟩
      obtain ⟨e, he⟩ := hdrop.mp hunreadable
      have hd : ∃ d, env.override .dialect readDialect file.database.dialect = .ok d := by
        cases h : env.override .dialect readDialect file.database.dialect with
        | ok d => exact ⟨d, rfl⟩
        | error e' => exact absurd (hdialect.mpr ⟨e', h⟩) hreadable
      exact ⟨e, override_eq_error.mpr (.inr ⟨hd, he⟩), readBy_dropExisting.variable_eq he⟩
    | databaseUrl | level | format | output | directory => exact False.elim

theorem exists_override_eq_ok : (∃ loaded, file.override env = .ok loaded) ↔ ∀ v, ¬ env.Refused v := by
  constructor
  · rintro ⟨loaded, h⟩ v hv
    obtain ⟨e, he, -⟩ := exists_override_eq_error.mpr hv
    exact nomatch h.symm.trans he
  · intro h
    cases hresult : file.override env with
    | ok loaded => exact ⟨loaded, rfl⟩
    | error e =>
      have hnamed : ∃ v, e.variable? = some v := by
        rcases override_eq_error.mp hresult with hfail | ⟨-, hfail⟩
        · exact ⟨_, readBy_dialect.variable_eq hfail⟩
        · exact ⟨_, readBy_dropExisting.variable_eq hfail⟩
      obtain ⟨v, hv⟩ := hnamed
      exact absurd (exists_override_eq_error.mp ⟨e, hresult, hv⟩) (h v)

end Config

end TableAlgebra
