/-
DockerClone.Http.QuoteTheorems — what a creation hands to the store holds
no quote.

`handle_container_create` is the only caller of `create_container`. It
scans every string it passes on out of the body with `%[^"]`, so none of
them has a double quote, whatever the body is.
-/
import DockerClone.Container.CreateTheorems
import DockerClone.Http.Recorder
import DockerClone.Metadata.Quotes

namespace DockerClone.Http

open DockerClone.CLib DockerClone.Container DockerClone.Metadata

def stopsAtQuote : Directive → Bool
  | .scanset c => c == '"'
  | _ => true

/-- Every scan set of the format stops at a quote. -/
def StopsAtQuote (format : String) : Prop :=
  ∀ d ∈ parseFormat format.toList, stopsAtQuote d = true

instance (format : String) : Decidable (StopsAtQuote format) := by
  unfold StopsAtQuote; infer_instance

theorem quote_not_mem_scanField {size : Nat} {body v : List Char} {key format : String}
    (hformat : StopsAtQuote format) (h : scanField size body key format = some v) :
    '"' ∉ cstr v := by
  have hzero : '"' ∉ cstr (zeros size) := by simp
  rw [scanField] at h
  split at h
  · rw [scanWithin] at h
    split at h
    · rename_i w hw
      split at h
      · obtain rfl := Option.some.inj h
        rw [scannedText] at hw
        split at hw
        · rename_i hscan
          obtain rfl := Option.some.inj hw
          have hquote : ∀ c, .scanset c ∈ parseFormat format.toList → c = '"' := fun c hc => by
            simpa [stopsAtQuote] using hformat _ hc
          have hstop := not_mem_of_scan hquote hscan
          rw [store, cstr_append_nul_cut]
          exact fun hc => hstop ((List.takeWhile_prefix _).subset hc)
        · simp at hw
      · simp at h
    · obtain rfl := Option.some.inj h
      exact hzero
  · obtain rfl := Option.some.inj h
    exact hzero

/-- The creations a request leads to are asked for in strings without
quotes. -/
theorem handleContainerCreate_quoteFree {σ : Type} (backend : Backend σ) (request : HttpRequest)
    (response : HttpResponse) (s : σ) (log : List StoreCall)
    {o : Int × HttpResponse × σ × List StoreCall}
    (h : handleContainerCreate (recorded backend) request response (s, log) = some o)
    {args : CreateArgs} {result : Int} (hcall : .createContainer args result ∈ o.2.2.2) :
    .createContainer args result ∈ log ∨ args.QuoteFree := by
  rw [handleContainerCreate] at h
  simp only [Option.bind_eq_bind, Option.bind_eq_some_iff] at h
  obtain ⟨imageName, h₁, command, h₂, workingDir, h₃, envVars, h₄, portMappings, h₅,
    volumeMappings, h₆, h⟩ := h
  have h₁ := quote_not_mem_scanField (by decide) h₁
  have h₂ := quote_not_mem_scanField (by decide) h₂
  have h₃ := quote_not_mem_scanField (by decide) h₃
  have h₄ := quote_not_mem_scanField (by decide) h₄
  have h₅ := quote_not_mem_scanField (by decide) h₅
  have h₆ := quote_not_mem_scanField (by decide) h₆
  split at h
  · obtain rfl := Option.some.inj h
    exact Or.inl hcall
  · have hasked : ∀ asked : CreateArgs, asked.QuoteFree →
        o.2.2.2 = log ++ [.createContainer asked (backend.createContainer asked s).1] →
        .createContainer args result ∈ log ∨ args.QuoteFree := by
      intro asked hquote hlog
      rw [hlog, List.mem_append, List.mem_singleton] at hcall
      refine hcall.imp_right fun hnew => ?_
      rw [(StoreCall.createContainer.inj hnew).1]
      exact hquote
    generalize (if found (cstr request.body) "\"AttachStdin\"".toList = true then (1 : Int32)
      else 0) = interactive at h
    generalize (if found (cstr request.body) "\"AttachStdout\"".toList = true then (1 : Int32)
      else 0) = tty at h
    generalize (if found (cstr request.body) "\"Detach\"".toList = true then (1 : Int32)
      else 0) = detach at h
    refine hasked
      { name := some (cstr (zeros 256))
        image := cstr imageName
        command := some (cstr command)
        workingDir := some (cstr workingDir)
        envVars := some (cstr envVars)
        portMappings := some (cstr portMappings)
        volumeMappings := some (cstr volumeMappings)
        interactive := interactive
        tty := tty
        detach := detach } ?_ ?_
    · simp [CreateArgs.QuoteFree, CreateArgs.strings, h₁, h₂, h₃, h₄, h₅, h₆]
    · split at h
      · rw [← Option.some.inj h]
        rfl
      · rw [← Option.some.inj h]
        rfl

end DockerClone.Http
