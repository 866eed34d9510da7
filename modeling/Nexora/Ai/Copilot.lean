import Nexora.Ai.Grounding

/-!
# The copilot

`CopilotService.ask` of `app/modules/ai/service.py` and the tools of `app/modules/ai/registry.py`.

A turn asks the provider, runs the tools that it calls and asks again, until an answer comes without
calls.  The answer is checked against what the tools returned and asked for once more if it fails.  What
cannot be answered reliably ends in the figures themselves.

The provider is a parameter with a memory of its own, so it may be any program and may keep all that it
was ever shown.  The tools read the database as it is at their call: `now n` is the world that call number
`n` of the turn finds.  Two turns whose worlds differ only in what tools read that the caller may not use
are the same to the caller and to the provider (`ask_congr`).
-/

namespace Nexora.Ai

open Nexora Foundations

/-! ## Tools -/

/-- The fields of a JSON object. -/
abbrev Fields := List (String × Payload)

/-- `RegisteredTool`.  The handler reads a world `W`. -/
structure RegisteredTool (W : Type) where
  name : String
  description : String
  permissions : List String
  schema : Fields
  handler : W → TenantContext → Fields → Except Err Payload

variable {W : Type}

/-- `authorize`. -/
def RegisteredTool.authorize (tool : RegisteredTool W) (context : TenantContext) : Except Err Unit :=
  let missing := tool.permissions.filter (· ∉ context.permissions)
  if missing = [] then .ok ()
  else .error <| .permissionDenied "PERMISSION_DENIED" <|
    "This request needs " ++ ", ".intercalate (missing.insertionSort (· ≤ ·)) ++ "."

/-- `value is False`. -/
def isFalse : Option Payload → Bool
  | some (.bool false) => true
  | _ => false

/-- `ToolRegistry`.  What registration refuses is not in one. -/
structure ToolRegistry (W : Type) where
  tools : List (RegisteredTool W)
  names_nodup : (tools.map (·.name)).Nodup
  permitted : ∀ tool ∈ tools, tool.permissions ≠ []
  closed : ∀ tool ∈ tools, isFalse (tool.schema.lookup "additionalProperties")

namespace ToolRegistry

def empty : ToolRegistry W where
  tools := []
  names_nodup := .nil
  permitted := fun _ h => absurd h List.not_mem_nil
  closed := fun _ h => absurd h List.not_mem_nil

/-- `tool`, which registers a handler. -/
def tool (registry : ToolRegistry W) (name description : String) (permissions : Option (List String))
    (schema : Fields) (handler : W → TenantContext → Fields → Except Err Payload) :
    Except Err (ToolRegistry W) :=
  let declared := permissions.getD []
  if hpermissions : declared = [] then
    .error (.runtime ("Tool '" ++ name ++
      "' declares no permission. Every tool must declare one (AI.md §2.2.2)."))
  else if hname : name ∈ registry.tools.map (·.name) then
    .error (.runtime ("Tool '" ++ name ++ "' is already registered."))
  else if hschema : isFalse (schema.lookup "additionalProperties") then
    .ok
      { tools := registry.tools ++ [⟨name, description, declared, schema, handler⟩]
        names_nodup := by
          rw [List.map_append, List.map_singleton]
          exact registry.names_nodup.append (List.nodup_singleton _)
            (List.disjoint_singleton.mpr hname)
        permitted := by
          intro tool htool
          rcases List.mem_append.mp htool with htool | htool
          · exact registry.permitted tool htool
          · rw [List.mem_singleton.mp htool]
            exact hpermissions
        closed := by
          intro tool htool
          rcases List.mem_append.mp htool with htool | htool
          · exact registry.closed tool htool
          · rw [List.mem_singleton.mp htool]
            exact hschema }
  else
    .error (.runtime ("Tool '" ++ name ++ "' must set additionalProperties=false so the model " ++
      "cannot smuggle unmodelled arguments."))

/-- `get`. -/
def get (registry : ToolRegistry W) (name : Str) : Option (RegisteredTool W) :=
  registry.tools.find? (str ·.name = name)

/-- `for_context`. -/
def forContext (registry : ToolRegistry W) (context : TenantContext) : List (RegisteredTool W) :=
  registry.tools.filter fun tool => tool.permissions.all (· ∈ context.permissions)

end ToolRegistry

/-- What the provider is told of a tool. -/
structure ToolDefinition where
  name : String
  description : String
  inputSchema : Fields

/-- `definitions`. -/
def ToolRegistry.definitions (registry : ToolRegistry W) (context : TenantContext) :
    List ToolDefinition :=
  (registry.forContext context).map fun tool => ⟨tool.name, tool.description, tool.schema⟩

theorem RegisteredTool.authorize_eq_ok {tool : RegisteredTool W} {context : TenantContext} {u : Unit} :
    tool.authorize context = .ok u ↔ ∀ p ∈ tool.permissions, p ∈ context.permissions := by
  unfold authorize
  simp [List.filter_eq_nil_iff]

/-- The tools that are offered are those that can be used. -/
theorem ToolRegistry.mem_forContext {registry : ToolRegistry W} {context : TenantContext}
    {tool : RegisteredTool W} : tool ∈ registry.forContext context ↔
      tool ∈ registry.tools ∧ tool.authorize context = .ok () := by
  rw [forContext, List.mem_filter, RegisteredTool.authorize_eq_ok, List.all_eq_true]
  simp only [decide_eq_true_iff]

theorem ToolRegistry.get_eq_some {registry : ToolRegistry W} {name : Str} {tool : RegisteredTool W}
    (h : registry.get name = some tool) : tool ∈ registry.tools ∧ str tool.name = name := by
  unfold get at h
  exact ⟨List.mem_of_find?_eq_some h, by simpa using List.find?_some h⟩

/-! ## Tool results as data -/

/-- What is in front of the data in a message. -/
def openingFence (source identifier : Str) : Str :=
  str "<untrusted_data source=\"" ++ source ++ str "\" id=\"" ++ identifier ++ str "\">\n"

/-- What ends the data in a message. -/
def closingFence : Str := str "</untrusted_data>"

/-- `wrap_untrusted`, of the payload as `json.dumps` writes it. -/
def wrapUntrusted (source identifier body : Str) : Str :=
  openingFence source identifier ++ replace closingFence (str "<\\/untrusted_data>") body ++
    str "\n" ++ closingFence

theorem closingFence_not_infix (body : Str) :
    ¬closingFence <:+: replace closingFence (str "<\\/untrusted_data>") body :=
  @not_infix_replace _ _ (ord '<') (ord '/') (ord '\\') (str "untrusted_data>") (str "/untrusted_data>")
    (by decide +kernel) (by decide +kernel) (by decide +kernel) body

/-- Whatever text the data is, only the end of the message closes it: what stands behind the opening fence
has one closing fence, at its end. -/
theorem wrapUntrusted_closes (source identifier body : Str) :
    ∃ data, wrapUntrusted source identifier body =
        openingFence source identifier ++ (data ++ closingFence) ∧
      ∀ front back, data ++ closingFence = front ++ (closingFence ++ back) → back = [] := by
  let written := replace closingFence (str "<\\/untrusted_data>") body
  refine ⟨written ++ str "\n", by simp only [wrapUntrusted, List.append_assoc, written], ?_⟩
  intro front back h
  have hfree : ¬closingFence <:+: written ++ str "\n" := by
    intro hinfix
    rcases List.infix_concat_iff.mp hinfix with hsuffix | hpart
    · obtain ⟨before, hbefore⟩ := hsuffix
      have hlast := congrArg List.getLast? hbefore
      rw [List.getLast?_append_of_ne_nil _ (by decide +kernel), List.getLast?_concat] at hlast
      exact absurd hlast (by decide +kernel)
    · exact closingFence_not_infix body hpart
  exact @eq_nil_of_append_mark _ (ord '<') (str "/untrusted_data>") _ _ _ (by decide +kernel) hfree h

/-! ## The provider -/

inductive MessageRole where
  | user
  | assistant

/-- One entry of `messages`. -/
structure Message where
  role : MessageRole
  content : Str
  /-- The key `"tool_calls"` is there. -/
  toolCalls : Bool

/-- `ToolCall`. -/
structure ToolCall where
  id : Str
  name : Str
  arguments : Fields

/-- `LLMResponse`. -/
structure LLMResponse where
  text : Str
  toolCalls : List ToolCall

/-- What `complete` can raise. -/
inductive ProviderError where
  /-- `ProviderUnavailableError`. -/
  | unavailable
  /-- Anything else. -/
  | raised (e : Err)

/-- `LLMProvider`, with a memory `M` of its own. -/
structure LLMProvider (M : Type) where
  complete : M → List Message → Option (List ToolDefinition) → M × Except ProviderError LLMResponse

/-! ## Turns -/

/-- `ToolInvocation`. -/
structure ToolInvocation where
  tool : Str
  arguments : Fields
  error : Bool
  rows : ℕ

/-- `messages`, `collected` and `invocations` of a turn. -/
structure Turn where
  messages : List Message
  collected : List Payload
  invocations : List ToolInvocation

/-- `AskResponse`. -/
structure AskResponse where
  answer : Option Str
  grounded : Bool
  regenerated : Bool
  note : Option String
  toolCalls : List ToolInvocation
  data : List Payload

/-- What a turn writes to the audit log. -/
inductive CopilotEvent where
  /-- `events.PROVIDER_UNAVAILABLE`, with the number of results. -/
  | providerUnavailable (tools : ℕ)
  /-- `events.GROUNDING_FAILED`, with the first of the numbers. -/
  | groundingFailed (ungrounded : List ℚ)
  /-- `events.COPILOT_QUERY`, with the tools that were called. -/
  | copilotQuery (tools : List Str) (regenerated : Bool)

/-- `CopilotService`, with what it reads of the settings.  `dumps` is `json.dumps` of a payload. -/
structure CopilotService (W M : Type) where
  registry : ToolRegistry W
  context : TenantContext
  provider : LLMProvider M
  llmMaxToolIterations : ℕ
  dumps : Payload → Str

/-- `len(payload.get("items", [])) if isinstance(payload, dict) else 0`. -/
def Payload.rows : Payload → Except Err ℕ
  | .dict fields =>
      match fields.lookup "items" with
      | .none => .ok 0
      | some (.list items) => .ok items.length
      | some (.dict items) => .ok items.length
      | some (.text items) => .ok items.length
      | some _ => .error (.runtime "TypeError")
  | _ => .ok 0

/-- `STRICTER`. -/
def stricter : Message where
  role := .user
  content := str ("\n\nYour previous answer contained figures that do not appear in the tool " ++
    "results. Rewrite it using ONLY figures present in the tool results above. " ++
    "If a figure is not there, say it is not available.")
  toolCalls := false

/-- `_degraded`. -/
def Turn.degraded (turn : Turn) (groundingFailed : Bool) : AskResponse where
  answer := none
  grounded := false
  regenerated := false
  note := some <|
    if groundingFailed then
      "A narrative answer could not be produced reliably, so the underlying figures are shown instead."
    else "The AI provider is unavailable, so the underlying figures are shown instead."
  toolCalls := turn.invocations
  data := turn.collected

/-- The end of `ask`, where the numbers that nothing supports are known. -/
def Turn.conclude (turn : Turn) (answer : Str) (regenerated : Bool) (offenders : List ℚ) :
    AskResponse × Option CopilotEvent :=
  if offenders = [] then
    (⟨some answer, true, regenerated, none, turn.invocations, turn.collected⟩,
      some (.copilotQuery (turn.invocations.map (·.tool)) regenerated))
  else (turn.degraded true, some (.groundingFailed (offenders.take 10)))

/-- How the loop of `ask` ends. -/
inductive Ended where
  | answered (text : Str)
  | unavailable
  /-- `else` of the loop: the provider still calls tools. -/
  | exhausted

namespace CopilotService

variable {M : Type}

/-- `_run_tool`, in the world that it finds. -/
def runTool (copilot : CopilotService W M) (world : W) (call : ToolCall) : Except Err (Payload × Bool) :=
  match copilot.registry.get call.name with
  | none => .ok (.dict [("error", .text (str "No such tool: " ++ call.name))], true)
  | some tool =>
      match (tool.authorize copilot.context >>= fun _ =>
        tool.handler world copilot.context call.arguments) with
      | .ok payload => .ok (payload, false)
      | .error (.app e) =>
          .ok (.dict [("error", .text (str e.code)), ("detail", .text (str e.message))], true)
      | .error e => .error e

/-- One pass of the loop over `response.tool_calls`. -/
def runCall (copilot : CopilotService W M) (now : ℕ → W) (turn : Turn) (call : ToolCall) :
    Except Err Turn := do
  let (payload, isError) ← copilot.runTool (now turn.collected.length) call
  let rows ← payload.rows
  .ok
    { messages := turn.messages ++
        [⟨.user, wrapUntrusted (str "tool:" ++ call.name) call.id (copilot.dumps payload), false⟩]
      collected := turn.collected ++ [payload]
      invocations := turn.invocations ++ [⟨call.name, call.arguments, isError, rows⟩] }

/-- The loop of `ask`. -/
def converse (copilot : CopilotService W M) (now : ℕ → W) :
    ℕ → Turn → M → M × Except Err (Turn × Ended)
  | 0, turn, memory => (memory, .ok (turn, .exhausted))
  | n + 1, turn, memory =>
      let available := copilot.registry.definitions copilot.context
      match copilot.provider.complete memory turn.messages (some available) with
      | (memory, .error .unavailable) => (memory, .ok (turn, .unavailable))
      | (memory, .error (.raised e)) => (memory, .error e)
      | (memory, .ok response) =>
          if response.toolCalls = [] then (memory, .ok (turn, .answered response.text))
          else
            let asked := { turn with messages := turn.messages ++ [⟨.assistant, response.text, true⟩] }
            match response.toolCalls.foldlM (copilot.runCall now) asked with
            | .ok turn => copilot.converse now n turn memory
            | .error e => (memory, .error e)

/-- `ask` behind its loop. -/
def conclude (copilot : CopilotService W M) (memory : M) (turn : Turn) :
    Ended → M × Except Err (AskResponse × Option CopilotEvent)
  | .unavailable =>
      (memory, .ok (turn.degraded false, some (.providerUnavailable turn.collected.length)))
  | .exhausted => (memory, .ok (turn.degraded false, none))
  | .answered answer =>
      match ungrounded answer turn.collected with
      | .error e => (memory, .error e)
      | .ok offenders =>
          if offenders ≠ [] ∧ turn.collected.length ≠ 0 then
            match copilot.provider.complete memory (turn.messages ++ [stricter]) none with
            | (memory, .error .unavailable) => (memory, .ok (turn.degraded false, none))
            | (memory, .error (.raised e)) => (memory, .error e)
            | (memory, .ok retry) =>
                (memory, (ungrounded retry.text turn.collected).map (turn.conclude retry.text true))
          else (memory, .ok (turn.conclude answer false offenders))

/-- `ask`. -/
def ask (copilot : CopilotService W M) (now : ℕ → W) (question : Str) (memory : M) :
    M × Except Err (AskResponse × Option CopilotEvent) :=
  match copilot.converse now copilot.llmMaxToolIterations ⟨[⟨.user, question, false⟩], [], []⟩ memory with
  | (memory, .ok (turn, ended)) => copilot.conclude memory turn ended
  | (memory, .error e) => (memory, .error e)

/-! ## What a turn may see -/

variable {copilot : CopilotService W M} {now now' : ℕ → W}

/-- A tool call tells two worlds apart only by a tool that the caller may use. -/
theorem runTool_congr {world world' : W} {call : ToolCall}
    (h : ∀ tool ∈ copilot.registry.forContext copilot.context, ∀ arguments,
      tool.handler world copilot.context arguments = tool.handler world' copilot.context arguments) :
    copilot.runTool world call = copilot.runTool world' call := by
  unfold runTool
  cases hget : copilot.registry.get call.name with
  | none => rfl
  | some tool =>
      have hrun : (tool.authorize copilot.context >>= fun _ =>
            tool.handler world copilot.context call.arguments) =
          tool.authorize copilot.context >>= fun _ =>
            tool.handler world' copilot.context call.arguments := by
        cases hauthorize : tool.authorize copilot.context with
        | error e => rfl
        | ok u =>
            have hregistered := (ToolRegistry.get_eq_some hget).1
            exact h tool (ToolRegistry.mem_forContext.mpr ⟨hregistered, hauthorize⟩) call.arguments
      simp only [hrun]

theorem converse_congr (h : copilot.runCall now = copilot.runCall now') (n : ℕ) (turn : Turn)
    (memory : M) : copilot.converse now n turn memory = copilot.converse now' n turn memory := by
  induction n generalizing turn memory with
  | zero => rfl
  | succ n ih => simp only [converse, h, ih]

/-- A turn depends on the world only through the tools that the caller may use, whatever the provider
asks for: two worlds that are the same to these give the same response, the same audit record and the
same memory of the provider. -/
theorem ask_congr
    (h : ∀ tool ∈ copilot.registry.forContext copilot.context, ∀ n arguments,
      tool.handler (now n) copilot.context arguments = tool.handler (now' n) copilot.context arguments)
    (question : Str) (memory : M) :
    copilot.ask now question memory = copilot.ask now' question memory := by
  have hcall : copilot.runCall now = copilot.runCall now' := by
    funext turn call
    have htool : copilot.runTool (now turn.collected.length) call =
        copilot.runTool (now' turn.collected.length) call :=
      runTool_congr fun tool htool => h tool htool _
    simp only [runCall, htool]
  simp only [ask, converse_congr hcall]

/-- The figures of a period. -/
structure Period where
  revenue : ℚ
  cost : ℚ

/-- `get_sales_summary` and `get_profit_summary`, as far as revenue and cost go. -/
def summaryTools : ToolRegistry Period where
  tools :=
    [{ name := "get_sales_summary"
       description := "Total sales, transaction count and average order value for a period."
       permissions := ["reports.read"]
       schema := [("additionalProperties", .bool false)]
       handler := fun period _ _ => .ok (.dict [("revenue", .number period.revenue)]) },
     { name := "get_profit_summary"
       description := "Revenue, cost of goods sold and gross profit for a period."
       permissions := ["reports.read", "accounting.read"]
       schema := [("additionalProperties", .bool false)]
       handler := fun period _ _ =>
         .ok (.dict [("revenue", .number period.revenue), ("cost_of_goods_sold", .number period.cost)]) }]
  names_nodup := by simp
  permitted := by simp
  closed := by simp [isFalse]

/-- A provider that asks for both summaries and then names the revenue. -/
def summarizing : LLMProvider ℕ where
  complete := fun asked _ _ =>
    (asked + 1, .ok <|
      if asked = 0 then
        ⟨[], [⟨str "a", str "get_profit_summary", []⟩, ⟨str "b", str "get_sales_summary", []⟩]⟩
      else ⟨str "Revenue was 1,000.", []⟩)

/-- A sales role asks: revenue may be read, and cost not. -/
def salesCopilot : CopilotService Period ℕ where
  registry := summaryTools
  context := ⟨1, 2, 3, ∅, {"ai.use", "reports.read"}, none⟩
  provider := summarizing
  llmMaxToolIterations := 4
  dumps := fun _ => []

/-- The cost does not matter to what the sales role gets. -/
theorem ask_congr_cost :
    salesCopilot.ask (fun _ => ⟨1000, 600⟩) (str "How did we do?") 0 =
      salesCopilot.ask (fun _ => ⟨1000, 900⟩) (str "How did we do?") 0 := by
  refine ask_congr (fun tool htool n arguments => ?_) _ _
  have hrevenue : salesCopilot.registry.forContext salesCopilot.context = summaryTools.tools.take 1 := by
    simp [salesCopilot, ToolRegistry.forContext, summaryTools]
  rw [hrevenue] at htool
  rw [List.mem_singleton.mp htool]

/-! ## What a turn returns -/

/-- What a call is answered with. -/
inductive Executed (copilot : CopilotService W M) (world : W) : ToolInvocation → Payload → Prop
  /-- What a tool returns that the caller may use. -/
  | served {tool : RegisteredTool W} {arguments : Fields} {payload : Payload} {rows : ℕ}
      (htool : tool ∈ copilot.registry.forContext copilot.context)
      (hpayload : tool.handler world copilot.context arguments = .ok payload) :
      Executed copilot world ⟨str tool.name, arguments, false, rows⟩ payload
  /-- No such tool. -/
  | unknown {name : Str} {arguments : Fields} {rows : ℕ} (hname : copilot.registry.get name = none) :
      Executed copilot world ⟨name, arguments, true, rows⟩
        (.dict [("error", .text (str "No such tool: " ++ name))])
  /-- The error of the tool, or of its authorization. -/
  | refused {name : Str} {arguments : Fields} {rows : ℕ} (e : AppError) :
      Executed copilot world ⟨name, arguments, true, rows⟩
        (.dict [("error", .text (str e.code)), ("detail", .text (str e.message))])

/-- Every call has one result, and each result is what its call is answered with. -/
structure Records (copilot : CopilotService W M) (now : ℕ → W) (invocations : List ToolInvocation)
    (collected : List Payload) : Prop where
  length_eq : invocations.length = collected.length
  executed : ∀ n invocation payload, (invocations.zip collected)[n]? = some (invocation, payload) →
    Executed copilot (now n) invocation payload

end CopilotService

end Nexora.Ai
