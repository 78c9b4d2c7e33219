import ReactorDeploy.Federate

/-!
# Generated sources and scripts

The texts that stand beside the descriptor of a unit: the C source with its entry point, the
variables for a build with make, and the script that launches a federation on one host.
-/

namespace ReactorDeploy

/-- Lines, each with a line feed behind it. -/
def linesText (lines : List String) : String :=
  String.join (lines.map (· ++ "\n"))

/-! ## The entry point -/

/-- How a platform enters a program. -/
inductive EntryStyle where
  /-- By `main`. -/
  | plain
  /-- By a task that `main` starts. -/
  | freeRtosTask
  /-- By `app_main`. -/
  | espIdfApp
  deriving DecidableEq, Repr

/-- The name of an entry style. -/
def EntryStyle.name : EntryStyle → String
  | .plain => "default"
  | .freeRtosTask => "freertos"
  | .espIdfApp => "esp-idf"

/-- The stack size of the main task where the program runs in one. -/
def mainTaskStackSize : Nat :=
  4096

/-- The C source with the entry point of a unit. -/
structure EntryPoint where
  style : EntryStyle
  mainName : String
  sizing : QueueSizes
  federate : Option String
  deriving DecidableEq, Repr

namespace EntryPoint

/-- The path of the source within its unit. -/
def path : String :=
  "lf_main.c"

/-- The headers that an entry style needs. -/
def includes : EntryStyle → List String
  | .freeRtosTask => ["#include \"FreeRTOS.h\"", "#include \"task.h\""]
  | _ => []

/-- The functions of an entry style. -/
def body : EntryStyle → List String
  | .plain =>
    ["int main(void) \x7b",
      "  lf_start();",
      "  return 0;",
      "\x7d"]
  | .freeRtosTask =>
    ["#ifndef LF_MAIN_TASK_STACK_SIZE",
      "#define LF_MAIN_TASK_STACK_SIZE " ++ toString mainTaskStackSize,
      "#endif",
      "",
      "static void lf_main_task(void *arg) \x7b",
      "  (void)arg;",
      "  lf_start();",
      "  vTaskDelete(NULL);",
      "\x7d",
      "",
      "int main(void) \x7b",
      "  xTaskCreate(lf_main_task, \"lf_main\", LF_MAIN_TASK_STACK_SIZE, NULL, " ++
        "tskIDLE_PRIORITY + 1, NULL);",
      "  vTaskStartScheduler();",
      "  return 0;",
      "\x7d"]
  | .espIdfApp =>
    ["void app_main(void) \x7b",
      "  lf_start();",
      "\x7d"]

/-- The text of the source. -/
def render (e : EntryPoint) : String :=
  linesText <|
    ["// Generated entry point for " ++ e.mainName ++ ". Do not edit.",
      "#include \"reactor-uc/reactor-uc.h\""] ++
    includes e.style ++
    ["",
      "#define LF_EVENT_QUEUE_SIZE " ++ toString e.sizing.events.toNat,
      "#define LF_REACTION_QUEUE_SIZE " ++ toString e.sizing.reactions.toNat] ++
    (e.federate.toList.map fun f => "#define LF_FEDERATE_NAME \"" ++ f ++ "\"") ++
    ["", "void lf_start(void);", ""] ++
    body e.style

end EntryPoint

/-! ## The make script -/

/-- The variables for a build with make. -/
structure MakeScript where
  mainName : String
  mainTarget : String
  platform : Platform
  sizing : QueueSizes
  federate : Option String
  mainSource : String
  deriving DecidableEq, Repr

namespace MakeScript

/-- The path of the script within its unit. -/
def path : String :=
  "make/lf.mk"

/-- The text of the script. -/
def render (m : MakeScript) : String :=
  linesText <|
    ["# Generated file, do not edit.",
      "LF_MAIN ?= " ++ m.mainName,
      "LF_MAIN_TARGET ?= " ++ m.mainTarget,
      "LF_PLATFORM ?= " ++ m.platform.buildName,
      "EVENT_QUEUE_SIZE = " ++ toString m.sizing.events.toNat,
      "REACTION_QUEUE_SIZE = " ++ toString m.sizing.reactions.toNat] ++
    (m.federate.toList.map fun f => "FEDERATE = " ++ f) ++
    ["LF_GEN_MAIN = " ++ m.mainSource]

end MakeScript

/-! ## The launch script -/

/-- The script that launches all federates of an application on one host. -/
structure LaunchScript where
  app : String
  federates : List String
  deriving DecidableEq, Repr

namespace LaunchScript

/-- The path of the script within the directory of the application. -/
def path (s : LaunchScript) : String :=
  "bin/" ++ s.app

/-- The lines that start one federate, from the directory of the script. -/
def startLines (app federate : String) : List String :=
  ["echo \"Starting federate " ++ federate ++ "\"",
    "\"$SCRIPT_DIR/" ++ app ++ "_" ++ federate ++ "\" \"$@\" &",
    "pids+=($!)"]

/-- The text of the script. -/
def render (s : LaunchScript) : String :=
  linesText <|
    ["#!/usr/bin/env bash",
      "# Launches all federates of " ++ s.app ++ ". Generated file, do not edit.",
      "set -euo pipefail",
      "",
      "SCRIPT_DIR=\"$(cd \"$(dirname \"$\x7bBASH_SOURCE[0]\x7d\")\" && pwd)\"",
      "pids=()",
      "",
      "cleanup() \x7b",
      "  for pid in \"$\x7bpids[@]\x7d\"; do",
      "    kill \"$pid\" 2>/dev/null || true",
      "  done",
      "\x7d",
      "trap cleanup EXIT INT TERM",
      ""] ++
    s.federates.flatMap (startLines s.app) ++
    ["",
      "status=0",
      "for pid in \"$\x7bpids[@]\x7d\"; do",
      "  wait \"$pid\" || status=$?",
      "done",
      "exit \"$status\""]

end LaunchScript

end ReactorDeploy
