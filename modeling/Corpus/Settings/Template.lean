/-
Corpus/Settings/Template.lean

The settings file that a new user starts from.  It names every setting with its default,
the optional ones commented out.
-/
import Corpus.Settings.Basic

namespace Corpus.Settings

/-- The default extensions as the items of an array. -/
def extensionList : String :=
  ", ".intercalate (defaultExtensions.map fun e => "\"" ++ e ++ "\"")

/-- The lines of the template. -/
def templateLines : List String :=
  [
    "# corpusd configuration",
    "# Place in ./corpusd.toml or ~/.config/corpusd/config.toml",
    "",
    "# ============================================================================",
    "# Search Engine",
    "# ============================================================================",
    "",
    "[engine]",
    "url = \"http://127.0.0.1:7700\"",
    "# api_key = \"...\"            # falls back to MEILI_MASTER_KEY",
    "index = \"documents\"",
    "commit_timeout_secs = 60      # primary batch commit",
    "maintenance_timeout_secs = 30 # thumbnail patches",
    "task_poll_ms = 50",
    "request_timeout_secs = 30",
    "",
    "# ============================================================================",
    "# Resource Monitor",
    "# ============================================================================",
    "",
    "[monitor]",
    "batch_min = 10",
    "batch_default = 50",
    "batch_max = 400",
    "batch_step_up = 10",
    "batch_step_down = 5",
    "",
    "# memory usage fractions; 0.50..0.65 is a dead zone with no adjustment",
    "memory_critical = 0.90",
    "memory_high = 0.80",
    "memory_moderate = 0.65",
    "memory_low = 0.50",
    "",
    "# load1 / cores",
    "load_high = 2.0",
    "load_elevated = 1.5",
    "",
    "critical_sleep_ms = 2000",
    "high_sleep_ms = 200",
    "moderate_sleep_ms = 50",
    "load_high_sleep_ms = 300",
    "load_elevated_sleep_ms = 100",
    "",
    "sample_interval = 50          # records between samples",
    "cooldown_poll_ms = 1000",
    "cooldown_max_wait_ms = 60000",
    "cooldown_recheck_wait_ms = 30000",
    "",
    "# ============================================================================",
    "# Deferred Images",
    "# ============================================================================",
    "",
    "[deferred]",
    "drain_chunk = 100",
    "patch_batch = 50",
    "",
    "# ============================================================================",
    "# Extractor",
    "# ============================================================================",
    "",
    "[extractor]",
    "command = \"doc_extractor\"",
    "args = []",
    "exit_timeout_secs = 30",
    "single_file_timeout_secs = 120",
    "",
    "# ============================================================================",
    "# Ingest",
    "# ============================================================================",
    "",
    "[ingest]",
    "allowed_extensions = [" ++ extensionList ++ "]",
    "max_content_chars = 100000",
    "min_text_chars = 10",
    "error_log_capacity = 50",
    "progress_log_interval = 1000",
    "# thumbnail_dir = \"/var/lib/corpusd/thumbnails\"",
    "thumbnail_url_prefix = \"/static/thumbnails\"",
    "# staging_dir = \"/var/cache/corpusd/staging\"",
    "",
    "# ============================================================================",
    "# Logging",
    "# ============================================================================",
    "",
    "[daemon]",
    "log_level = \"info\"            # off, error, warn, info, debug, trace",
    "log_rotation = \"daily\"        # daily, hourly, never"
  ]

/-- The text of the template. -/
def template : String :=
  String.join (templateLines.map (· ++ "\n"))

end Corpus.Settings
