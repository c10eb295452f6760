import ComposeBastion.Recovery.StandaloneClone
import Mathlib.Data.List.TakeWhile

namespace ComposeBastion

open Js

/-!
# What the create command makes

The command of `buildStandaloneContainerCreateCommand` is read by a shell and then by
`docker create`.  The shell is `ShellWords`; of the command line of Docker the model has what is
documented of the options that the command uses, as a parameter.

* `CreateRequest` — options with a value each, the image and the words behind it;
* `DockerCreate` — the command line: `configure` is the container of an accepted request;
* `standalone_words` — the words of the command are those of `standaloneRequest`;
* `standalone_process_iff` — when the container runs the captured process in the captured
  environment under the captured labels.
-/

/-! ### Requests -/

/-- The options of `docker create` that the command uses; each of them has a value. -/
inductive CreateFlag
  | restart | user | workdir | env | label | publish | volume | network | ip | networkAlias
  | name | entrypoint
  deriving DecidableEq, Repr

def CreateFlag.text : CreateFlag → String
  | .restart => "--restart"
  | .user => "--user"
  | .workdir => "--workdir"
  | .env => "--env"
  | .label => "--label"
  | .publish => "-p"
  | .volume => "-v"
  | .network => "--network"
  | .ip => "--ip"
  | .networkAlias => "--network-alias"
  | .name => "--name"
  | .entrypoint => "--entrypoint"

/-- The values of an option, in order. -/
def flagValues (flag : CreateFlag) (options : List (CreateFlag × String)) : List String :=
  options.filterMap fun option => if option.1 = flag then some option.2 else none

/-- The arguments of `docker create`. -/
structure CreateRequest where
  options : List (CreateFlag × String)
  image : String
  command : List String
  deriving DecidableEq, Repr

/-- The arguments as words: the first word that is no option is the image. -/
def CreateRequest.words (request : CreateRequest) : List String :=
  request.options.flatMap (fun option => [option.1.text, option.2])
    ++ request.image :: request.command

/-- A word that is not read as an option. -/
def isImageWord (word : String) : Bool := word.toList.head?.any (· ≠ '-')

/-! ### Containers -/

/-- The text before the first `=`. -/
def keyOf (text : String) : String := String.ofList (text.toList.takeWhile (· ≠ '='))

/-- The text behind the first `=`. -/
def valueOf (text : String) : String := String.ofList ((text.toList.dropWhile (· ≠ '=')).drop 1)

def hasValue (text : String) : Bool := text.toList.contains '='

/-- What an image or a container runs: the entrypoint and the command behind it, the environment
    and the labels. -/
structure ProcessConfig where
  entrypoint : List String
  command : List String
  env : List String
  labels : String → Option String

/-- `--env NAME` takes the value that the variable has for the client, if it has one. -/
def resolveEnv (clientEnv : String → Option String) (text : String) : String :=
  if hasValue text then text
  else match clientEnv text with
    | some value => text ++ "=" ++ value
    | none => text

/-- The labels of the texts; of two labels with one key the last counts. -/
def labelsOf (texts : List String) (key : String) : Option String :=
  (texts.reverse.find? fun text => keyOf text = key).map valueOf

/-- The container of a request, over the configuration of its image: an entrypoint of the request
    is one word and takes the place of both the entrypoint and the command of the image, an empty
    one removes them; variables and labels of the image stay where the request has none of the
    same name. -/
def CreateRequest.configure (request : CreateRequest) (clientEnv : String → Option String)
    (image : ProcessConfig) : ProcessConfig where
  entrypoint :=
    match (flagValues .entrypoint request.options).getLast? with
    | none => image.entrypoint
    | some word => if word = "" then [] else [word]
  command :=
    if request.command = [] ∧ flagValues .entrypoint request.options = [] then image.command
    else request.command
  env :=
    let given := (flagValues .env request.options).map (resolveEnv clientEnv)
    given ++ image.env.filter fun entry => keyOf entry ∉ given.map keyOf
  labels := fun key => (labelsOf (flagValues .label request.options) key).or (image.labels key)

/-- `docker create`: the images it finds, the variables of the client, which requests it accepts
    (the names, ports, addresses and policies it allows), and the container of an accepted one. -/
structure DockerCreate where
  images : String → ProcessConfig
  clientEnv : String → Option String
  accepts : CreateRequest → Bool
  create : List String → Option ProcessConfig
  create_words : ∀ request : CreateRequest, isImageWord request.image = true →
    create request.words =
      if accepts request then some (request.configure clientEnv (images request.image)) else none

/-- The words of a command for the shell. -/
def shellWords (command : String) : Option (List String) :=
  (ShellWords.words command.toList).map (·.map String.ofList)

/-- A command line `docker create …`. -/
def DockerCreate.run (docker : DockerCreate) (command : String) : Option ProcessConfig :=
  match shellWords command with
  | some ("docker" :: "create" :: arguments) => docker.create arguments
  | _ => none

/-! ### A command line with these options only -/

def CreateFlag.all : List CreateFlag :=
  [.restart, .user, .workdir, .env, .label, .publish, .volume, .network, .ip, .networkAlias,
    .name, .entrypoint]

def CreateFlag.ofText? (word : String) : Option CreateFlag :=
  CreateFlag.all.find? (·.text = word)

/-- The request that the words are read as. -/
def parseArguments : List String → Option CreateRequest
  | [] => none
  | [word] => if isImageWord word then some ⟨[], word, []⟩ else none
  | word :: value :: rest =>
    match CreateFlag.ofText? word with
    | some flag => (parseArguments rest).map fun request =>
        { request with options := (flag, value) :: request.options }
    | none => if isImageWord word then some ⟨[], word, value :: rest⟩ else none

theorem ofText?_text (flag : CreateFlag) : CreateFlag.ofText? flag.text = some flag := by
  cases flag <;> decide

theorem ofText?_image {word : String} (h : isImageWord word = true) :
    CreateFlag.ofText? word = none := by
  have hflags : ∀ flag ∈ CreateFlag.all, isImageWord flag.text = false := by decide
  refine List.find?_eq_none.mpr fun flag hflag htext => ?_
  have hfalse := hflags flag hflag
  rw [of_decide_eq_true htext, h] at hfalse
  cases hfalse

/-- The reader inverts the words of a request. -/
theorem parseArguments_words (request : CreateRequest) (h : isImageWord request.image = true) :
    parseArguments request.words = some request := by
  obtain ⟨options, image, command⟩ := request
  induction options with
  | nil =>
    cases command with
    | nil => exact if_pos h
    | cons word command =>
      show parseArguments (image :: word :: command) = _
      rw [parseArguments, ofText?_image h]
      exact if_pos h
  | cons option options ih =>
    obtain ⟨flag, value⟩ := option
    show parseArguments (flag.text :: value :: (CreateRequest.mk options image command).words) = _
    rw [parseArguments, ofText?_text, ih h]
    rfl

/-- The command line with the reader. -/
def DockerCreate.reading (images : String → ProcessConfig) (clientEnv : String → Option String)
    (accepts : CreateRequest → Bool) : DockerCreate where
  images := images
  clientEnv := clientEnv
  accepts := accepts
  create := fun arguments => (parseArguments arguments).bind fun request =>
    if accepts request then some (request.configure clientEnv (images request.image)) else none
  create_words := by
    intro request h
    rw [parseArguments_words request h]
    rfl

/-! ### The words of the command -/

/-- `--flag value` for a value that is there and not empty. -/
def optionalOption (flag : CreateFlag) (value : Option String) : List (CreateFlag × String) :=
  if truthy value then [(flag, value.getD "")] else []

/-- The value of a `--label` option. -/
def labelText (label : String × String) : String := label.1 ++ "=" ++ label.2

/-- The value of a `-p` option. -/
def publishValue? (portRemap : Record) (port : PortManifest) : Option String :=
  match port.host.bind fun host => remapHostPortValue host portRemap with
  | none => none
  | some host =>
    if host = "" then none else some (host ++ ":" ++ port.container ++ "/" ++ port.protocol)

def CloneMount.value (mount : CloneMount) : String :=
  mount.source ++ ":" ++ mount.destination ++ if mount.readOnly then ":ro" else ""

/-- The options of `networkArgs`. -/
def networkOptions (networkMap : Record) (container : ContainerManifest) :
    List (CreateFlag × String) :=
  match container.networks.head? with
  | none => []
  | some firstNetwork =>
    if firstNetwork = "" then []
    else
      let targetNetwork := (networkMap.lookup firstNetwork).getD firstNetwork
      let attachment := container.networkAttachments.find? (·.name = firstNetwork)
      let address := attachment.bind (·.ipAddress)
      let aliases := ((attachment.map (·.aliases)).getD []).filter fun name =>
        name ≠ "" && name ≠ container.name
      [(.network, targetNetwork)]
        ++ (if truthy address && targetNetwork ≠ "bridge" then [(.ip, address.getD "")] else [])
        ++ aliases.map fun name => (.networkAlias, name)

/-- The request of the command. -/
def standaloneRequest (container : ContainerManifest) (name : String)
    (volumeMap bindMap portRemap networkMap : Record) : CreateRequest where
  options :=
    (if container.restartPolicy ≠ "" ∧ container.restartPolicy ≠ "no" then
        [(.restart, container.restartPolicy)] else [])
      ++ optionalOption .user container.user
      ++ optionalOption .workdir container.workingDir
      ++ container.env.map (fun env => (.env, env))
      ++ container.labels.map (fun label => (.label, labelText label))
      ++ (container.ports.filterMap (publishValue? portRemap)).map (fun value => (.publish, value))
      ++ (standaloneMounts volumeMap bindMap container).map (fun mount => (.volume, mount.value))
      ++ networkOptions networkMap container
      ++ [(.name, name)]
      ++ (if container.entrypoint ≠ [] then
          [(.entrypoint, " ".intercalate container.entrypoint)] else [])
  image := container.image
  command := container.command

/-- Options as arguments of the command. -/
def optionArgs (options : List (CreateFlag × String)) : List String :=
  options.flatMap fun option => [option.1.text, shQuote option.2]

theorem optionArgs_append (options options' : List (CreateFlag × String)) :
    optionArgs (options ++ options') = optionArgs options ++ optionArgs options' :=
  List.flatMap_append

theorem optionArgs_map {α : Type} (flag : CreateFlag) (value : α → String) (items : List α) :
    optionArgs (items.map fun item => (flag, value item)) =
      items.flatMap fun item => [flag.text, shQuote (value item)] :=
  List.flatMap_map ..

theorem optionArgs_if {p : Prop} [Decidable p] (flag : CreateFlag) (value : String) :
    optionArgs (if p then [(flag, value)] else []) =
      if p then [flag.text, shQuote value] else [] := by
  split <;> rfl

theorem optionArgs_optionalOption (flag : CreateFlag) (value : Option String) :
    optionArgs (optionalOption flag value) = optionalArg flag.text value :=
  optionArgs_if flag _

theorem optionArgs_publish (portRemap : Record) (ports : List PortManifest) :
    optionArgs ((ports.filterMap (publishValue? portRemap)).map fun value => (.publish, value)) =
      ports.flatMap (portArgs portRemap) := by
  induction ports with
  | nil => rfl
  | cons port ports ih =>
    have hport : portArgs portRemap port =
        optionArgs ((publishValue? portRemap port).toList.map fun value => (.publish, value)) := by
      unfold portArgs publishValue?
      cases port.host.bind fun host => remapHostPortValue host portRemap with
      | none => rfl
      | some host => by_cases hempty : host = "" <;> simp only [hempty, if_true, if_false] <;> rfl
    rw [List.flatMap_cons, ← ih, hport, ← optionArgs_append, ← List.map_append]
    cases hvalue : publishValue? portRemap port with
    | none => rw [List.filterMap_cons_none hvalue]; rfl
    | some value => rw [List.filterMap_cons_some hvalue]; rfl

theorem optionArgs_network (networkMap : Record) (container : ContainerManifest) :
    optionArgs (networkOptions networkMap container) = networkArgs networkMap container := by
  unfold networkOptions networkArgs
  cases container.networks.head? with
  | none => rfl
  | some firstNetwork =>
    by_cases hempty : firstNetwork = ""
    · simp only [hempty, if_true]
      rfl
    · simp only [hempty, if_false, optionArgs_append]
      rw [optionArgs_if, optionArgs_map]
      rfl

theorem standaloneCreateArgs_eq (container : ContainerManifest) (name : String)
    (volumeMap bindMap portRemap networkMap : Record) :
    standaloneCreateArgs container name volumeMap bindMap portRemap networkMap =
      "docker create" ::
        (optionArgs (standaloneRequest container name volumeMap bindMap portRemap
            networkMap).options
          ++ shQuote container.image :: container.command.map shQuote) := by
  have hlabels : optionArgs (container.labels.map fun label =>
        (CreateFlag.label, labelText label)) =
      container.labels.flatMap fun label => ["--label", shQuote (labelText label)] :=
    List.flatMap_map ..
  have hmounts : optionArgs ((standaloneMounts volumeMap bindMap container).map fun mount =>
        (CreateFlag.volume, mount.value)) =
      (standaloneMounts volumeMap bindMap container).flatMap CloneMount.args :=
    List.flatMap_map ..
  simp only [standaloneRequest, standaloneCreateArgs, optionArgs_append, hlabels, hmounts,
    optionArgs_optionalOption, optionArgs_publish, optionArgs_network]
  rw [optionArgs_if, optionArgs_if, optionArgs_map]
  simp only [List.cons_append, List.append_assoc, List.nil_append]
  rfl

theorem renders_optionArgs (options : List (CreateFlag × String)) :
    List.Forall₂ ShellWords.Renders ((optionArgs options).map String.toList)
      ((options.flatMap fun option => [option.1.text, option.2]).map String.toList) := by
  induction options with
  | nil => exact .nil
  | cons option options ih =>
    have hplain : ∀ flag : CreateFlag, flag.text.toList ≠ [] ∧
        flag.text.toList.all ShellWords.isOrdinary = true := by
      intro flag
      cases flag <;> decide
    have hvalue : ShellWords.Renders (shQuote option.2).toList option.2.toList := by
      rw [toList_shQuote]
      exact .quoted _
    exact .cons (.plain (hplain option.1).1 (List.all_eq_true.mp (hplain option.1).2)) (.cons hvalue ih)

theorem renders_quoted (values : List String) :
    List.Forall₂ ShellWords.Renders ((values.map shQuote).map String.toList)
      (values.map String.toList) := by
  induction values with
  | nil => exact .nil
  | cons value values ih =>
    refine .cons ?_ ih
    rw [toList_shQuote]
    exact .quoted _

/-- **The words of the command**: `docker create` and the words of the request. -/
theorem standalone_words (container : ContainerManifest) (name : String)
    (volumeMap bindMap portRemap networkMap : Record) :
    shellWords (buildStandaloneContainerCreateCommand container name volumeMap bindMap portRemap
        networkMap) =
      some ("docker" :: "create" ::
        (standaloneRequest container name volumeMap bindMap portRemap networkMap).words) := by
  generalize hrequest :
    standaloneRequest container name volumeMap bindMap portRemap networkMap = request
  have himage : request.image = container.image := by rw [← hrequest]; rfl
  have hcommand : request.command = container.command := by rw [← hrequest]; rfl
  have hjoin : (buildStandaloneContainerCreateCommand container name volumeMap bindMap portRemap
        networkMap).toList =
      [' '].intercalate (("docker" :: "create" :: (optionArgs request.options
        ++ (request.image :: request.command).map shQuote)).map String.toList) := by
    rw [buildStandaloneContainerCreateCommand, standaloneCreateArgs_eq, hrequest,
      String.toList_intercalate, himage, hcommand]
    cases hargs : optionArgs request.options ++
        shQuote container.image :: container.command.map shQuote with
    | nil => exact absurd hargs (by simp)
    | cons first rest =>
      have hwords : (container.image :: container.command).map shQuote =
          shQuote container.image :: container.command.map shQuote := rfl
      rw [hwords, hargs]
      simp only [List.map_cons, List.intercalate_cons_cons]
      rfl
  have hdocker : ShellWords.Renders "docker".toList "docker".toList :=
    .plain (by decide) (List.all_eq_true.mp (by decide))
  have hcreate : ShellWords.Renders "create".toList "create".toList :=
    .plain (by decide) (List.all_eq_true.mp (by decide))
  have hrenders : List.Forall₂ ShellWords.Renders
      (("docker" :: "create" :: (optionArgs request.options
        ++ (request.image :: request.command).map shQuote)).map String.toList)
      (("docker" :: "create" :: request.words).map String.toList) := by
    refine .cons hdocker (.cons hcreate ?_)
    rw [CreateRequest.words, List.map_append, List.map_append]
    exact List.rel_append (renders_optionArgs request.options)
      (renders_quoted (request.image :: request.command))
  rw [shellWords, hjoin, ShellWords.words_intercalate hrenders, Option.map_some, List.map_map,
    show String.ofList ∘ String.toList = id from funext fun _ => String.ofList_toList, List.map_id]

theorem run_standalone (docker : DockerCreate) (container : ContainerManifest) (name : String)
    (volumeMap bindMap portRemap networkMap : Record) (himage : isImageWord container.image = true) :
    docker.run (buildStandaloneContainerCreateCommand container name volumeMap bindMap portRemap
        networkMap) =
      if docker.accepts (standaloneRequest container name volumeMap bindMap portRemap networkMap)
      then some ((standaloneRequest container name volumeMap bindMap portRemap networkMap).configure
        docker.clientEnv (docker.images container.image))
      else none := by
  rw [DockerCreate.run, standalone_words]
  exact docker.create_words _ himage

/-! ### The values of the options -/

section
variable (flag : CreateFlag)

theorem flagValues_append (options options' : List (CreateFlag × String)) :
    flagValues flag (options ++ options') = flagValues flag options ++ flagValues flag options' :=
  List.filterMap_append

theorem flagValues_map {α : Type} (value : α → String) (items : List α) :
    flagValues flag (items.map fun item => (flag, value item)) = items.map value := by
  simp [flagValues]

theorem flagValues_other {options : List (CreateFlag × String)}
    (h : ∀ option ∈ options, option.1 ≠ flag) : flagValues flag options = [] :=
  List.filterMap_eq_nil_iff.mpr fun option hoption => if_neg (h option hoption)

theorem flagValues_map_other {α : Type} {flag' : CreateFlag} (h : flag' ≠ flag)
    (value : α → String) (items : List α) :
    flagValues flag (items.map fun item => (flag', value item)) = [] := by
  refine flagValues_other flag fun option hoption => ?_
  obtain ⟨item, -, rfl⟩ := List.mem_map.mp hoption
  exact h

theorem flagValues_if_other {p : Prop} [Decidable p] {flag' : CreateFlag} (h : flag' ≠ flag)
    (value : String) : flagValues flag (if p then [(flag', value)] else []) = [] := by
  refine flagValues_other flag fun option hoption => ?_
  by_cases hp : p
  · rw [if_pos hp] at hoption
    obtain rfl := List.mem_singleton.mp hoption
    exact h
  · rw [if_neg hp] at hoption
    cases hoption

theorem flagValues_network_other (h : CreateFlag.network ≠ flag) (hip : CreateFlag.ip ≠ flag)
    (halias : CreateFlag.networkAlias ≠ flag) (networkMap : Record)
    (container : ContainerManifest) :
    flagValues flag (networkOptions networkMap container) = [] := by
  unfold networkOptions
  cases container.networks.head? with
  | none => rfl
  | some firstNetwork =>
    by_cases hempty : firstNetwork = ""
    · simp only [hempty, if_true]
      rfl
    · simp only [hempty, if_false, flagValues_append]
      rw [flagValues_if_other flag hip, flagValues_map_other flag halias,
        flagValues_other flag (by simpa using h)]
      rfl

end

section
variable (container : ContainerManifest) (name : String)
  (volumeMap bindMap portRemap networkMap : Record)

theorem standalone_env :
    flagValues .env (standaloneRequest container name volumeMap bindMap portRemap
      networkMap).options = container.env := by
  simp only [standaloneRequest, flagValues_append, optionalOption]
  rw [flagValues_if_other _ (by decide), flagValues_if_other _ (by decide),
    flagValues_if_other _ (by decide), flagValues_map, flagValues_map_other _ (by decide),
    flagValues_map_other _ (by decide), flagValues_map_other _ (by decide),
    flagValues_network_other _ (by decide) (by decide) (by decide),
    flagValues_if_other _ (by decide)]
  simp [flagValues]

theorem standalone_label :
    flagValues .label (standaloneRequest container name volumeMap bindMap portRemap
      networkMap).options = container.labels.map labelText := by
  simp only [standaloneRequest, flagValues_append, optionalOption]
  rw [flagValues_if_other _ (by decide), flagValues_if_other _ (by decide),
    flagValues_if_other _ (by decide), flagValues_map_other _ (by decide), flagValues_map,
    flagValues_map_other _ (by decide), flagValues_map_other _ (by decide),
    flagValues_network_other _ (by decide) (by decide) (by decide),
    flagValues_if_other _ (by decide)]
  simp [flagValues]

theorem standalone_entrypoint :
    flagValues .entrypoint (standaloneRequest container name volumeMap bindMap portRemap
      networkMap).options =
        if container.entrypoint ≠ [] then [" ".intercalate container.entrypoint] else [] := by
  simp only [standaloneRequest, flagValues_append, optionalOption]
  rw [flagValues_if_other _ (by decide), flagValues_if_other _ (by decide),
    flagValues_if_other _ (by decide), flagValues_map_other _ (by decide),
    flagValues_map_other _ (by decide), flagValues_map_other _ (by decide),
    flagValues_map_other _ (by decide),
    flagValues_network_other _ (by decide) (by decide) (by decide)]
  by_cases h : container.entrypoint = [] <;> simp [h, flagValues]

theorem standalone_publish :
    flagValues .publish (standaloneRequest container name volumeMap bindMap portRemap
      networkMap).options = container.ports.filterMap (publishValue? portRemap) := by
  simp only [standaloneRequest, flagValues_append, optionalOption]
  rw [flagValues_if_other _ (by decide), flagValues_if_other _ (by decide),
    flagValues_if_other _ (by decide), flagValues_map_other _ (by decide),
    flagValues_map_other _ (by decide), flagValues_map, flagValues_map_other _ (by decide),
    flagValues_network_other _ (by decide) (by decide) (by decide),
    flagValues_if_other _ (by decide)]
  simp [flagValues]

end

/-! ### What is kept -/

/-- The label of the manifest under a key. -/
def capturedLabel (container : ContainerManifest) (key : String) : Option String :=
  (container.labels.find? fun label => label.1 = key).map Prod.snd

/-- The container runs the captured process in the captured environment, under the captured
    labels. -/
def ProcessKept (container : ContainerManifest) (created : ProcessConfig) : Prop :=
  created.entrypoint ++ created.command = container.entrypoint ++ container.command ∧
    created.env = container.env ∧ ∀ key, created.labels key = capturedLabel container key

/-- The entrypoint is one word, or there is none, and the image has neither an entrypoint nor, if
    the manifest has no command, a command. -/
def EntrypointFits (container : ContainerManifest) (image : ProcessConfig) : Prop :=
  (∃ word, word ≠ "" ∧ container.entrypoint = [word]) ∨
    container.entrypoint = [] ∧ image.entrypoint = [] ∧
      (container.command = [] → image.command = [])

/-- No captured variable without a value is one of the client, and the image has no others than
    the manifest. -/
def EnvFits (container : ContainerManifest) (clientEnv : String → Option String)
    (image : ProcessConfig) : Prop :=
  (∀ text ∈ container.env, hasValue text = true ∨ clientEnv text = none) ∧
    ∀ text ∈ image.env, keyOf text ∈ container.env.map keyOf

/-- A label with a `=` in its key is read under the text before it.  What is read there is the
    captured label, the image has the captured labels with such keys, and it has no others than
    the manifest. -/
def LabelsFit (container : ContainerManifest) (image : ProcessConfig) : Prop :=
  (∀ front label back, container.labels = front ++ label :: back →
      (∀ later ∈ back, keyOf later.1 ≠ keyOf label.1) →
      capturedLabel container (keyOf label.1) = some (valueOf (labelText label))) ∧
    (∀ key, hasValue key = true → image.labels key = capturedLabel container key) ∧
    ∀ key, image.labels key ≠ none → capturedLabel container key ≠ none

theorem toList_labelText (label : String × String) :
    (labelText label).toList = label.1.toList ++ '=' :: label.2.toList := by
  rw [labelText, String.toList_append, String.toList_append, List.append_assoc]
  rfl

theorem keyOf_labelText (label : String × String) : keyOf (labelText label) = keyOf label.1 := by
  rw [keyOf, keyOf, toList_labelText, List.takeWhile_append]
  split
  · next h =>
    rw [List.takeWhile_cons_of_neg (by decide), List.append_nil]
    rw [(List.takeWhile_prefix _).eq_of_length h]
  · rfl

theorem keyOf_of_hasValue_false {text : String} (h : hasValue text = false) :
    keyOf text = text := by
  have hall : ∀ c ∈ text.toList, (decide (c ≠ '=')) = true := by
    intro c hc
    rw [decide_eq_true_eq]
    rintro rfl
    rw [hasValue, List.contains_iff_mem.mpr hc] at h
    cases h
  rw [keyOf, List.takeWhile_eq_self_iff.mpr hall, String.ofList_toList]

theorem hasValue_keyOf (text : String) : hasValue (keyOf text) = false := by
  rw [hasValue, keyOf, String.toList_ofList, List.contains_eq_mem, decide_eq_false_iff_not]
  intro hmem
  have := List.mem_takeWhile_imp hmem
  simp at this

/-! ### The process -/

section
variable (container : ContainerManifest) (name : String)
  (volumeMap bindMap portRemap networkMap : Record) (clientEnv : String → Option String)
  (image : ProcessConfig)

/-- The container that the command makes. -/
def standaloneConfig : ProcessConfig :=
  (standaloneRequest container name volumeMap bindMap portRemap networkMap).configure clientEnv
    image

theorem standaloneConfig_process :
    (standaloneConfig container name volumeMap bindMap portRemap networkMap clientEnv
          image).entrypoint
        ++ (standaloneConfig container name volumeMap bindMap portRemap networkMap clientEnv
          image).command =
      container.entrypoint ++ container.command ↔ EntrypointFits container image := by
  have hcommand : (standaloneRequest container name volumeMap bindMap portRemap
      networkMap).command = container.command := rfl
  simp only [standaloneConfig, CreateRequest.configure, standalone_entrypoint, hcommand,
    EntrypointFits]
  rcases hentry : container.entrypoint with _ | ⟨word, _ | ⟨next, words⟩⟩
  · -- the image decides
    by_cases hnone : container.command = []
    · simp [hnone]
    · simp [hnone]
  · -- one word
    by_cases hempty : word = ""
    · simp only [hempty]
      simp
    · simp [hempty]
  · -- the words become one
    have hlength : ∀ first : List String, first.length ≤ 1 →
        first ++ container.command ≠ (word :: next :: words) ++ container.command := by
      intro first hfirst heq
      have := congrArg List.length heq
      simp only [List.length_append, List.length_cons] at this
      omega
    simp only [ne_eq, reduceCtorEq, not_false_eq_true, if_true, and_false, if_false,
      List.getLast?_singleton, List.cons.injEq, exists_false, false_and, or_self, iff_false]
    refine hlength _ ?_
    split <;> simp

theorem resolveEnv_eq_self {text : String} :
    resolveEnv clientEnv text = text ↔ hasValue text = true ∨ clientEnv text = none := by
  rw [resolveEnv]
  by_cases hvalue : hasValue text = true
  · simp [hvalue]
  · rw [if_neg hvalue]
    cases hclient : clientEnv text with
    | none => simp
    | some value =>
      simp only [hvalue, reduceCtorEq, or_self, iff_false]
      intro heq
      have := congrArg (fun s : String => s.toList.length) heq
      simp at this

theorem standaloneConfig_env :
    (standaloneConfig container name volumeMap bindMap portRemap networkMap clientEnv image).env =
      container.env ↔ EnvFits container clientEnv image := by
  simp only [standaloneConfig, CreateRequest.configure, standalone_env, EnvFits]
  have hgiven : container.env.map (resolveEnv clientEnv) = container.env ↔
      ∀ text ∈ container.env, hasValue text = true ∨ clientEnv text = none := by
    conv_lhs => rhs; rw [← List.map_id container.env]
    rw [List.map_inj_left]
    exact forall₂_congr fun text _ => resolveEnv_eq_self clientEnv
  have hrest : ∀ names : List String,
      image.env.filter (fun entry => keyOf entry ∉ names) = [] ↔
        ∀ text ∈ image.env, keyOf text ∈ names := by
    intro names
    simp [List.filter_eq_nil_iff]
  constructor
  · intro heq
    -- the given variables are as many as the captured ones, so that nothing is added
    have hlength := congrArg List.length heq
    rw [List.length_append, List.length_map, Nat.add_eq_left, List.length_eq_zero_iff] at hlength
    rw [hlength, List.append_nil] at heq
    rw [heq] at hlength
    exact ⟨hgiven.mp heq, (hrest _).mp hlength⟩
  · rintro ⟨hself, himage⟩
    rw [hgiven.mpr hself, (hrest _).mpr himage, List.append_nil]

end

/-! ### The labels -/

/-- The label that is read under a key is the last of those whose text has it. -/
theorem labelsOf_eq_some {labels : List (String × String)} {key value : String} :
    labelsOf (labels.map labelText) key = some value ↔
      ∃ front label back, labels = front ++ label :: back ∧ keyOf label.1 = key ∧
        (∀ later ∈ back, keyOf later.1 ≠ key) ∧ valueOf (labelText label) = value := by
  rw [labelsOf, ← List.map_reverse, List.find?_map, Option.map_map, Option.map_eq_some_iff]
  simp only [List.find?_eq_some_iff_append, Function.comp_apply, keyOf_labelText, decide_eq_true_eq,
    Bool.not_eq_true', decide_eq_false_iff_not]
  constructor
  · rintro ⟨label, ⟨hkey, back, front, hsplit, hback⟩, hvalue⟩
    refine ⟨front.reverse, label, back.reverse, ?_, hkey, ?_, hvalue⟩
    · rw [← List.reverse_reverse labels, hsplit]
      simp
    · intro later hlater
      exact hback later (List.mem_reverse.mp hlater)
  · rintro ⟨front, label, back, rfl, hkey, hback, hvalue⟩
    refine ⟨label, ⟨hkey, back.reverse, front.reverse, by simp, ?_⟩, hvalue⟩
    intro later hlater
    exact hback later (List.mem_reverse.mp hlater)

theorem labelsOf_eq_none {labels : List (String × String)} {key : String} :
    labelsOf (labels.map labelText) key = none ↔ ∀ label ∈ labels, keyOf label.1 ≠ key := by
  rw [labelsOf, ← List.map_reverse, List.find?_map, Option.map_map, Option.map_eq_none_iff,
    List.find?_eq_none]
  simp only [List.mem_reverse, Function.comp_apply, keyOf_labelText, decide_eq_true_eq]

theorem capturedLabel_ne_none {container : ContainerManifest} {key : String} :
    capturedLabel container key ≠ none ↔ ∃ label ∈ container.labels, label.1 = key := by
  rw [capturedLabel, Ne, Option.map_eq_none_iff, List.find?_eq_none]
  simp

section
variable (container : ContainerManifest) (name : String)
  (volumeMap bindMap portRemap networkMap : Record) (clientEnv : String → Option String)
  (image : ProcessConfig)

theorem standaloneConfig_labels :
    (∀ key, (standaloneConfig container name volumeMap bindMap portRemap networkMap clientEnv
        image).labels key = capturedLabel container key) ↔ LabelsFit container image := by
  simp only [standaloneConfig, CreateRequest.configure, standalone_label, LabelsFit]
  constructor
  · intro hall
    refine ⟨?_, ?_, ?_⟩
    · intro front label back hlabels hback
      rw [← hall, labelsOf_eq_some.mpr ⟨front, label, back, hlabels, rfl, hback, rfl⟩]
      rfl
    · intro key hkey
      have hnone : labelsOf (container.labels.map labelText) key = none := by
        refine labelsOf_eq_none.mpr fun label _ heq => ?_
        rw [← heq, hasValue_keyOf] at hkey
        cases hkey
      rw [← hall, hnone]
      rfl
    · intro key hkey
      rw [← hall]
      cases labelsOf (container.labels.map labelText) key with
      | none => exact hkey
      | some value => exact Option.some_ne_none value
  · rintro ⟨hlast, hodd, himage⟩ key
    cases hread : labelsOf (container.labels.map labelText) key with
    | some value =>
      obtain ⟨front, label, back, hlabels, rfl, hback, rfl⟩ := labelsOf_eq_some.mp hread
      exact (hlast front label back hlabels hback).symm
    | none =>
      show image.labels key = capturedLabel container key
      by_cases hkey : hasValue key = true
      · exact hodd key hkey
      · -- a captured label with this key would be read under it
        have hfree : capturedLabel container key = none := by
          by_contra hne
          obtain ⟨label, hlabel, rfl⟩ := capturedLabel_ne_none.mp hne
          exact labelsOf_eq_none.mp hread label hlabel
            (keyOf_of_hasValue_false (Bool.eq_false_iff.mpr hkey))
        rw [hfree]
        by_contra hne
        exact himage key hne hfree

end

/-- **What a clone runs.**  For every manifest and all maps, the command makes a container with
    the captured process, environment and labels if and only if Docker accepts the request, the
    entrypoint is one word or there is none to replace, the environment needs nothing of the
    client and removes nothing of the image, and no label is read under another key. -/
theorem standalone_process_iff (docker : DockerCreate) (container : ContainerManifest)
    (name : String) (volumeMap bindMap portRemap networkMap : Record)
    (himage : isImageWord container.image = true) :
    (∃ created, docker.run (buildStandaloneContainerCreateCommand container name volumeMap bindMap
        portRemap networkMap) = some created ∧ ProcessKept container created) ↔
      docker.accepts (standaloneRequest container name volumeMap bindMap portRemap networkMap)
          = true ∧
        EntrypointFits container (docker.images container.image) ∧
        EnvFits container docker.clientEnv (docker.images container.image) ∧
        LabelsFit container (docker.images container.image) := by
  rw [run_standalone docker container name volumeMap bindMap portRemap networkMap himage]
  have hkept : ProcessKept container (standaloneConfig container name volumeMap bindMap portRemap
      networkMap docker.clientEnv (docker.images container.image)) ↔
        EntrypointFits container (docker.images container.image) ∧
          EnvFits container docker.clientEnv (docker.images container.image) ∧
          LabelsFit container (docker.images container.image) :=
    and_congr (standaloneConfig_process ..) (and_congr (standaloneConfig_env ..)
      (standaloneConfig_labels ..))
  by_cases haccepts : docker.accepts (standaloneRequest container name volumeMap bindMap portRemap
      networkMap) = true
  · simp only [haccepts, if_true, Option.some.injEq, exists_eq_left', true_and]
    exact hkept
  · simp [haccepts]

/-! ### An entrypoint of several words -/

/-- An image without an entrypoint, an environment or labels. -/
def bareImage : ProcessConfig := ⟨[], ["sh"], [], fun _ => none⟩

/-- A client without variables that may create everything. -/
def plainDocker : DockerCreate := .reading (fun _ => bareImage) (fun _ => none) fun _ => true

/-- A container with an entrypoint, a variable and a label. -/
def migrateContainer (entrypoint : List String) : ContainerManifest :=
  { webContainer with
    entrypoint := entrypoint
    command := ["echo hi"]
    env := ["PATH=/usr/bin:/bin"]
    labels := [("app", "web")] }

theorem single_entrypoint_kept :
    ∃ created, plainDocker.run (buildStandaloneContainerCreateCommand
        (migrateContainer ["/entrypoint.sh"]) "web-restore" webVolumeMap exactBindMap .empty
        .empty) = some created ∧ ProcessKept (migrateContainer ["/entrypoint.sh"]) created := by
  refine (standalone_process_iff plainDocker (migrateContainer ["/entrypoint.sh"]) "web-restore"
    webVolumeMap exactBindMap .empty .empty (by decide)).mpr ⟨rfl, ?_, ?_, ?_⟩
  · exact .inl ⟨"/entrypoint.sh", by decide, rfl⟩
  · exact ⟨by decide, fun text htext => by cases htext⟩
  · refine ⟨?_, ?_, fun key hkey => absurd rfl hkey⟩
    · intro front label back hlabels _
      rcases front with _ | ⟨first, front⟩
      · obtain ⟨rfl, rfl⟩ := List.cons.inj hlabels
        decide +kernel
      · exact absurd (List.cons.inj hlabels).2 (by simp)
    · intro key hkey
      have hne : ("app" : String) ≠ key := by
        rintro rfl
        exact absurd hkey (by decide)
      show none = ([("app", "web")].find? fun label : String × String => label.1 = key).map Prod.snd
      rw [List.find?_cons_of_neg (by simpa using hne)]
      rfl

/-- `["/bin/sh", "-c"]` is given to `--entrypoint` as the one word `/bin/sh -c`. -/
theorem two_entrypoint_words_joined :
    (plainDocker.run (buildStandaloneContainerCreateCommand (migrateContainer ["/bin/sh", "-c"])
        "web-restore" webVolumeMap exactBindMap .empty .empty)).map
          (fun created => created.entrypoint ++ created.command) =
        some ["/bin/sh -c", "echo hi"] ∧
      (migrateContainer ["/bin/sh", "-c"]).entrypoint
          ++ (migrateContainer ["/bin/sh", "-c"]).command = ["/bin/sh", "-c", "echo hi"] ∧
      ¬ ∃ created, plainDocker.run (buildStandaloneContainerCreateCommand
          (migrateContainer ["/bin/sh", "-c"]) "web-restore" webVolumeMap exactBindMap .empty
          .empty) = some created ∧ ProcessKept (migrateContainer ["/bin/sh", "-c"]) created := by
  have hrun : (plainDocker.run (buildStandaloneContainerCreateCommand
      (migrateContainer ["/bin/sh", "-c"]) "web-restore" webVolumeMap exactBindMap .empty
        .empty)).map (fun created => created.entrypoint ++ created.command) =
      some ["/bin/sh -c", "echo hi"] := by
    rw [run_standalone plainDocker _ _ _ _ _ _ (by decide)]
    rfl
  refine ⟨hrun, rfl, ?_⟩
  rintro ⟨created, hcreated, hprocess, -⟩
  rw [hcreated] at hrun
  have hjoined : created.entrypoint ++ created.command = _ := Option.some.inj hrun
  rw [hprocess] at hjoined
  exact absurd hjoined (by decide)

end ComposeBastion
