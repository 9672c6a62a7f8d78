import TraceReplay.Format
import TraceReplay.Locale
import TraceReplay.Wording.Template

/-! # The catalog of descriptions

Every step is described by a phrase, and every phrase has a template in each language. The two
languages of a phrase use the same slots. A phrase is known to callers by its key.
-/

namespace TraceReplay.Wording

inductive Phrase where
  | function
  | note
  | unknownEvent
  | malformedEvent
  | initSuffix
  | ast
  | enter (format : Format)
  | exit (format : Format)
  | declare (format : Format)
  | assign (format : Format)
  | allocate (format : Format)
  | release (format : Format)
  | output (format : Format)
  | storeHeap
  | storeLocal
  | storeNowhere
  | storeByte
  | recipeStart
  | recipeLocal
  | recipeHeap
  | recipePrint
  | recipeEnd
  deriving DecidableEq

namespace Phrase

def key : Phrase → String
  | .function => "function"
  | .note => "note"
  | .unknownEvent => "unknown_event"
  | .malformedEvent => "malformed_event"
  | .initSuffix => "init_suffix"
  | .ast => "clang.ast"
  | .enter format => format.name ++ ".enter"
  | .exit format => format.name ++ ".exit"
  | .declare format => format.name ++ ".declare"
  | .assign format => format.name ++ ".set"
  | .allocate format => format.name ++ ".malloc"
  | .release format => format.name ++ ".free"
  | .output format => format.name ++ ".output"
  | .storeHeap => "clang.store_heap"
  | .storeLocal => "clang.store_local"
  | .storeNowhere => "clang.store"
  | .storeByte => "wasm.store_mem"
  | .recipeStart => "recipe.start"
  | .recipeLocal => "recipe.local"
  | .recipeHeap => "recipe.heap"
  | .recipePrint => "recipe.print"
  | .recipeEnd => "recipe.end"

def shared : List (Format → Phrase) :=
  [.enter, .exit, .declare, .assign, .allocate, .release, .output]

def all : List Phrase :=
  [.function, .note, .unknownEvent, .malformedEvent, .initSuffix, .ast, .storeHeap, .storeLocal,
    .storeNowhere, .storeByte, .recipeStart, .recipeLocal, .recipeHeap, .recipePrint, .recipeEnd] ++
    shared.map (· .clang) ++ shared.map (· .wasm)

theorem mem_all (p : Phrase) : p ∈ all := by
  cases p <;> first | decide | (rename_i f; cases f <;> decide)

def ofKey? (key : String) : Option Phrase := all.find? (·.key = key)

def english : Phrase → Template
  | .function => [.words "function"]
  | .note => [.words "note"]
  | .unknownEvent => [.words "unrecognized event: ", .slot .tag]
  | .malformedEvent => [.words "malformed ", .slot .tag, .words " event ignored"]
  | .initSuffix => [.words " = ", .slot .value]
  | .ast =>
    [.words "Input is a Clang AST JSON. Deriving runtime steps from an AST requires ",
      .words "instrumented events (e.g., -finstrument-functions or a custom log)."]
  | .enter .clang => [.slot .fn, .words " called; stack frame created"]
  | .exit .clang => [.words "return from ", .slot .fn, .words "; stack frame removed"]
  | .declare .clang =>
    [.words "local variable ", .slot .name, .words " (", .slot .type, .words ", ", .slot .size,
      .words " bytes) allocated @ ", .slot .addr, .slot .init]
  | .assign .clang => [.words "local ", .slot .name, .words " = ", .slot .value]
  | .allocate .clang =>
    [.slot .size, .words " bytes allocated on heap @ ", .slot .addr, .words " (", .slot .label,
      .words ")"]
  | .release .clang => [.words "free(", .slot .addr, .words "); → block released"]
  | .storeHeap => [.slot .count, .words " bytes written to heap block ", .slot .addr]
  | .storeLocal =>
    [.words "stack local ", .slot .name, .words " @ ", .slot .addr, .words " updated"]
  | .storeNowhere => [.words "store @ ", .slot .addr]
  | .output .clang => [.words "printf → output \"", .slot .text, .words "\""]
  | .enter .wasm => [.slot .fn, .words " called"]
  | .exit .wasm => [.slot .fn, .words " returned"]
  | .declare .wasm =>
    [.words "local ", .slot .name, .words " (", .slot .type, .words ") allocated @ ", .slot .addr,
      .slot .init]
  | .assign .wasm => [.words "local ", .slot .name, .words " = ", .slot .value]
  | .allocate .wasm => [.slot .size, .words " bytes on heap @ ", .slot .addr]
  | .release .wasm => [.words "free(", .slot .addr, .words ")"]
  | .storeByte =>
    [.words "heap @ ", .slot .addr, .words " [+", .slot .offset, .words "] = ", .slot .byte]
  | .output .wasm => [.words "stdout ← ", .slot .text]
  | .recipeStart => [.words "main started"]
  | .recipeLocal => [.words "local ", .slot .name, .words " allocated"]
  | .recipeHeap => [.words "heap allocated @ ", .slot .addr]
  | .recipePrint => [.words "printf → \"", .slot .text, .words "\""]
  | .recipeEnd => [.words "return 0; program finished"]

def bengali : Phrase → Template
  | .function => [.words "function"]
  | .note => [.words "নোট"]
  | .unknownEvent => [.words "অচেনা ইভেন্ট: ", .slot .tag]
  | .malformedEvent => [.words "ত্রুটিপূর্ণ ", .slot .tag, .words " ইভেন্ট উপেক্ষা করা হলো"]
  | .initSuffix => [.words " = ", .slot .value]
  | .ast =>
    [.words "প্রাপ্ত ইনপুটটি Clang AST JSON। AST থেকে রানটাইম স্টেপ জেনারেট করতে ",
      .words "ইন্সট্রুমেন্টেড ইভেন্ট প্রয়োজন (e.g., -finstrument-functions বা কাস্টম ",
      .words "লগ)।"]
  | .enter .clang => [.slot .fn, .words " কল শুরু; স্ট্যাক ফ্রেম তৈরি হলো"]
  | .exit .clang => [.slot .fn, .words " থেকে রিটার্ন; স্ট্যাক ফ্রেম অপসারণ"]
  | .declare .clang =>
    [.words "লোকাল ভেরিয়েবল ", .slot .name, .words " (", .slot .type, .words ", ", .slot .size,
      .words " bytes) বরাদ্দ @ ", .slot .addr, .slot .init]
  | .assign .clang => [.words "লোকাল ", .slot .name, .words " = ", .slot .value]
  | .allocate .clang =>
    [.words "হিপে ", .slot .size, .words " বাইট বরাদ্দ @ ", .slot .addr, .words " (", .slot .label,
      .words ")"]
  | .release .clang => [.words "free(", .slot .addr, .words "); → ব্লক মুক্ত"]
  | .storeHeap =>
    [.words "হিপ ব্লক ", .slot .addr, .words " তে ", .slot .count, .words " বাইট লেখা"]
  | .storeLocal => [.words "স্ট্যাকে ", .slot .name, .words " @ ", .slot .addr, .words " আপডেট"]
  | .storeNowhere => [.words "store @ ", .slot .addr]
  | .output .clang => [.words "printf → আউটপুটে \"", .slot .text, .words "\""]
  | .enter .wasm => [.slot .fn, .words " কল"]
  | .exit .wasm => [.slot .fn, .words " রিটার্ন"]
  | .declare .wasm =>
    [.words "লোকাল ", .slot .name, .words " (", .slot .type, .words ") বরাদ্দ @ ", .slot .addr,
      .slot .init]
  | .assign .wasm => [.words "লোকাল ", .slot .name, .words " = ", .slot .value]
  | .allocate .wasm => [.words "হিপে ", .slot .size, .words " বাইট @ ", .slot .addr]
  | .release .wasm => [.words "free(", .slot .addr, .words ")"]
  | .storeByte =>
    [.words "হিপ @ ", .slot .addr, .words " [+", .slot .offset, .words "] = ", .slot .byte]
  | .output .wasm => [.words "stdout ← ", .slot .text]
  | .recipeStart => [.words "main শুরু"]
  | .recipeLocal => [.words "লোকাল ", .slot .name, .words " বরাদ্দ"]
  | .recipeHeap => [.words "হিপ বরাদ্দ @ ", .slot .addr]
  | .recipePrint => [.words "printf → \"", .slot .text, .words "\""]
  | .recipeEnd => [.words "return 0; প্রোগ্রাম শেষ"]

def template : Locale → Phrase → Template
  | .en => english
  | .bn => bengali

/-- The description of a step whose arguments are all at hand. -/
def say (phrase : Phrase) (locale : Locale) (given : Slot → String) : String :=
  (phrase.template locale).fill given

end Phrase

end TraceReplay.Wording
