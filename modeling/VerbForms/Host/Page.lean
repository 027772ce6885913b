/-!
# The page of a console

The page that a browser loads. It asks the host for the console of a path and draws a form per verb, the
value of the resource and the messages for the user.
-/

namespace VerbForms.Host

/-- The lines of the page. -/
def pageLines : List String := [
  "<!doctype html>",
  "<html lang=\"en\">",
  "<head>",
  "  <meta charset=\"utf-8\">",
  "  <meta name=\"viewport\" content=\"width=device-width, initial-scale=1\">",
  "  <title>Form Console</title>",
  "  <style>",
  "    :root \x7b --line: #d6dce5; --ink: #162334; --dim: #5d6f84; --blue: #1653b5; --tint: #dbe8ff; \x7d",
  "    * \x7b box-sizing: border-box; \x7d",
  "    body \x7b margin: 0; padding: 1.25rem; background: #f5f7fb; color: var(--ink); font: 15px/1.45 \"Segoe UI\", Arial, sans-serif; \x7d",
  "    .wrap \x7b max-width: 960px; margin: 0 auto; display: grid; gap: 1rem; \x7d",
  "    .hero h1 \x7b margin: 0; font-size: 1.3rem; \x7d",
  "    .hero p, .hint \x7b margin: 0.35rem 0 0; color: var(--dim); font-size: 0.85rem; \x7d",
  "    .panel \x7b background: #fff; border: 1px solid var(--line); border-radius: 10px; padding: 0.9rem; \x7d",
  "    .panel h2 \x7b margin: 0 0 0.6rem; font-size: 1rem; \x7d",
  "    .row \x7b display: flex; gap: 0.5rem; \x7d",
  "    .row input \x7b flex: 1; \x7d",
  "    .field \x7b display: grid; gap: 0.3rem; margin-bottom: 0.6rem; \x7d",
  "    .field label, legend \x7b font-weight: 600; font-size: 0.9rem; \x7d",
  "    fieldset \x7b border: 1px solid var(--line); border-radius: 8px; margin: 0 0 0.6rem; \x7d",
  "    input, textarea, button \x7b font: inherit; \x7d",
  "    input, textarea \x7b width: 100%; padding: 0.5rem; border: 1px solid var(--line); border-radius: 6px; \x7d",
  "    input[type=\"checkbox\"] \x7b width: auto; \x7d",
  "    textarea, pre \x7b font-family: \"Menlo\", \"Consolas\", monospace; font-size: 0.85rem; \x7d",
  "    textarea \x7b min-height: 90px; resize: vertical; \x7d",
  "    button \x7b padding: 0.5rem 0.8rem; border: 0; border-radius: 6px; background: #ebf0f7; cursor: pointer; \x7d",
  "    button.primary, .tab.active \x7b background: var(--blue); color: #fff; \x7d",
  "    button:disabled \x7b opacity: 0.6; cursor: wait; \x7d",
  "    .tabs \x7b display: flex; flex-wrap: wrap; gap: 0.4rem; margin-bottom: 0.6rem; \x7d",
  "    .tab \x7b background: var(--tint); color: #19407a; font-size: 0.85rem; \x7d",
  "    .status \x7b font-weight: 700; padding: 0.4rem 0.5rem; border-radius: 6px; background: #eef3f9; \x7d",
  "    .status.ok \x7b color: #0f7a42; background: #e8f8ee; \x7d",
  "    .status.err \x7b color: #b82727; background: #fdeced; \x7d",
  "    pre \x7b margin: 0.5rem 0 0; padding: 0.5rem; max-height: 360px; overflow: auto; white-space: pre-wrap; background: #f8fafc; border: 1px solid var(--line); border-radius: 6px; \x7d",
  "    .hidden \x7b display: none; \x7d",
  "  </style>",
  "</head>",
  "<body>",
  "  <div class=\"wrap\">",
  "    <header class=\"hero\">",
  "      <h1>Form Console</h1>",
  "      <p>Forms generated from the JSON Schema each verb of a resource publishes.</p>",
  "    </header>",
  "",
  "    <section class=\"panel\">",
  "      <div class=\"row\">",
  "        <input id=\"resourcePath\" type=\"text\" placeholder=\"/pets\" autocomplete=\"off\">",
  "        <button id=\"loadBtn\" class=\"primary\" type=\"button\">Load</button>",
  "      </div>",
  "    </section>",
  "",
  "    <section class=\"panel\">",
  "      <h2>Resource</h2>",
  "      <div id=\"statusLine\" class=\"status\">Ready</div>",
  "      <pre id=\"resourceBody\" class=\"hidden\"></pre>",
  "    </section>",
  "",
  "    <section class=\"panel\">",
  "      <div id=\"tabs\" class=\"tabs\"></div>",
  "      <form id=\"form\" novalidate></form>",
  "      <button id=\"submitBtn\" class=\"primary hidden\" type=\"button\">Submit</button>",
  "      <pre id=\"responseBody\" class=\"hidden\"></pre>",
  "    </section>",
  "  </div>",
  "",
  "  <script>",
  "    (function () \x7b",
  "      const pathEl = document.getElementById(\"resourcePath\");",
  "      const loadBtn = document.getElementById(\"loadBtn\");",
  "      const statusLineEl = document.getElementById(\"statusLine\");",
  "      const resourceBodyEl = document.getElementById(\"resourceBody\");",
  "      const tabsEl = document.getElementById(\"tabs\");",
  "      const formEl = document.getElementById(\"form\");",
  "      const submitBtn = document.getElementById(\"submitBtn\");",
  "      const responseBodyEl = document.getElementById(\"responseBody\");",
  "      let consoleState = null;",
  "      let visiblePanel = null;",
  "",
  "      pathEl.value = new URLSearchParams(window.location.search).get(\"path\") || \"/\";",
  "",
  "      function setStatus(message, variant) \x7b",
  "        statusLineEl.textContent = message;",
  "        statusLineEl.className = \"status\";",
  "        if (variant) \x7b",
  "          statusLineEl.classList.add(variant);",
  "        \x7d",
  "      \x7d",
  "",
  "      function apiUrl(suffix) \x7b",
  "        return \"/api/console\" + suffix + \"?path=\" + encodeURIComponent(pathEl.value.trim() || \"/\");",
  "      \x7d",
  "",
  "      async function readResponseDetail(response) \x7b",
  "        const raw = await response.text();",
  "        if (!raw) \x7b",
  "          return \"HTTP \" + response.status;",
  "        \x7d",
  "        try \x7b",
  "          const parsed = JSON.parse(raw);",
  "          if (parsed && typeof parsed.detail === \"string\") \x7b",
  "            return parsed.detail;",
  "          \x7d",
  "          return JSON.stringify(parsed);",
  "        \x7d catch (_) \x7b",
  "          return raw;",
  "        \x7d",
  "      \x7d",
  "",
  "      function showPre(element, panel) \x7b",
  "        element.textContent = panel && panel.visible ? panel.body : \"\";",
  "        element.classList.toggle(\"hidden\", !(panel && panel.visible));",
  "      \x7d",
  "",
  "      function fieldOptions(options, name, definition) \x7b",
  "        if (definition && options.definitions && options.definitions[definition]) \x7b",
  "          return options.definitions[definition].fields[name] || \x7b\x7d;",
  "        \x7d",
  "        return (options.fields && options.fields[name]) || \x7b\x7d;",
  "      \x7d",
  "",
  "      function inputFor(schema, meta, value) \x7b",
  "        const kind = schema.type;",
  "        let input;",
  "        if (kind === \"boolean\") \x7b",
  "          input = document.createElement(\"input\");",
  "          input.type = \"checkbox\";",
  "          input.checked = Boolean(value);",
  "        \x7d else if (kind === \"array\" || kind === undefined) \x7b",
  "          input = document.createElement(\"textarea\");",
  "          input.value = value === undefined ? \"\" : JSON.stringify(value, null, 2);",
  "          input.dataset.json = \"true\";",
  "        \x7d else \x7b",
  "          input = document.createElement(\"input\");",
  "          input.type = meta.type || (kind === \"integer\" || kind === \"number\" ? \"number\" : \"text\");",
  "          input.value = value === undefined || value === null ? \"\" : String(value);",
  "        \x7d",
  "        input.dataset.kind = kind || \"\";",
  "        input.addEventListener(\"change\", function () \x7b pushValue(\"change\"); \x7d);",
  "        input.addEventListener(\"blur\", function () \x7b pushValue(\"blur\"); \x7d);",
  "        return input;",
  "      \x7d",
  "",
  "      function renderProperties(container, schema, options, data, definition) \x7b",
  "        const properties = (schema && schema.properties) || \x7b\x7d;",
  "        Object.keys(properties).forEach(function (name) \x7b",
  "          const property = properties[name] || \x7b\x7d;",
  "          const meta = fieldOptions(options, name, definition);",
  "          const value = data && typeof data === \"object\" ? data[name] : undefined;",
  "          if (property.type === \"object\" || property.properties) \x7b",
  "            const fieldset = document.createElement(\"fieldset\");",
  "            fieldset.dataset.name = name;",
  "            const legend = document.createElement(\"legend\");",
  "            legend.textContent = meta.label || property.title || name;",
  "            fieldset.appendChild(legend);",
  "            const nestedDefinition = property.title && options.definitions && options.definitions[property.title]",
  "              ? property.title",
  "              : null;",
  "            renderProperties(fieldset, property, options, value || \x7b\x7d, nestedDefinition);",
  "            container.appendChild(fieldset);",
  "            return;",
  "          \x7d",
  "          const wrapper = document.createElement(\"div\");",
  "          wrapper.className = \"field\";",
  "          wrapper.dataset.name = name;",
  "          const label = document.createElement(\"label\");",
  "          label.textContent = meta.label || property.title || name;",
  "          wrapper.appendChild(label);",
  "          wrapper.appendChild(inputFor(property, meta, value));",
  "          if (meta.helper) \x7b",
  "            const hint = document.createElement(\"div\");",
  "            hint.className = \"hint\";",
  "            hint.textContent = meta.helper;",
  "            wrapper.appendChild(hint);",
  "          \x7d",
  "          container.appendChild(wrapper);",
  "        \x7d);",
  "      \x7d",
  "",
  "      function readValue(container) \x7b",
  "        const result = \x7b\x7d;",
  "        Array.prototype.forEach.call(container.children, function (child) \x7b",
  "          const name = child.dataset ? child.dataset.name : undefined;",
  "          if (!name) \x7b",
  "            return;",
  "          \x7d",
  "          if (child.tagName === \"FIELDSET\") \x7b",
  "            result[name] = readValue(child);",
  "            return;",
  "          \x7d",
  "          const input = child.querySelector(\"input, textarea\");",
  "          if (!input) \x7b",
  "            return;",
  "          \x7d",
  "          if (input.type === \"checkbox\") \x7b",
  "            result[name] = input.checked;",
  "          \x7d else if (input.dataset.json === \"true\") \x7b",
  "            if (input.value.trim()) \x7b",
  "              try \x7b",
  "                result[name] = JSON.parse(input.value);",
  "              \x7d catch (_) \x7b",
  "                result[name] = input.value;",
  "              \x7d",
  "            \x7d",
  "          \x7d else if (input.value !== \"\") \x7b",
  "            const kind = input.dataset.kind;",
  "            result[name] = kind === \"integer\" || kind === \"number\" ? Number(input.value) : input.value;",
  "          \x7d",
  "        \x7d);",
  "        return result;",
  "      \x7d",
  "",
  "      async function pushValue(trigger) \x7b",
  "        if (!visiblePanel) \x7b",
  "          return;",
  "        \x7d",
  "        await fetch(apiUrl(\"/panels/\" + visiblePanel.verb + \"/value\"), \x7b",
  "          method: \"PUT\",",
  "          headers: \x7b \"Content-Type\": \"application/json\" \x7d,",
  "          body: JSON.stringify(\x7b value: readValue(formEl), trigger: trigger \x7d)",
  "        \x7d);",
  "      \x7d",
  "",
  "      function renderTabs() \x7b",
  "        tabsEl.innerHTML = \"\";",
  "        consoleState.panels.forEach(function (panel) \x7b",
  "          if (!panel.form) \x7b",
  "            return;",
  "          \x7d",
  "          const tab = document.createElement(\"button\");",
  "          tab.type = \"button\";",
  "          tab.className = \"tab\" + (panel.visible ? \" active\" : \"\");",
  "          tab.textContent = panel.verb;",
  "          tab.addEventListener(\"click\", function () \x7b selectPanel(panel.verb); \x7d);",
  "          tabsEl.appendChild(tab);",
  "        \x7d);",
  "      \x7d",
  "",
  "      function renderPanel() \x7b",
  "        formEl.innerHTML = \"\";",
  "        visiblePanel = consoleState.panels.find(function (panel) \x7b return panel.visible; \x7d) || null;",
  "        submitBtn.classList.toggle(\"hidden\", !visiblePanel);",
  "        if (!visiblePanel) \x7b",
  "          showPre(responseBodyEl, null);",
  "          return;",
  "        \x7d",
  "        const form = visiblePanel.form;",
  "        renderProperties(formEl, form.schema, form.options, form.data, null);",
  "        showPre(responseBodyEl, visiblePanel.response);",
  "      \x7d",
  "",
  "      function applyState(state) \x7b",
  "        consoleState = state;",
  "        showPre(resourceBodyEl, state.resource);",
  "        if (state.resource_error) \x7b",
  "          setStatus(state.resource_error, \"err\");",
  "        \x7d else \x7b",
  "          setStatus(\"Loaded \" + state.path, \"ok\");",
  "        \x7d",
  "        renderTabs();",
  "        renderPanel();",
  "      \x7d",
  "",
  "      async function loadConsole() \x7b",
  "        loadBtn.disabled = true;",
  "        setStatus(\"Loading schemas...\", \"\");",
  "        try \x7b",
  "          const response = await fetch(apiUrl(\"\"));",
  "          if (!response.ok) \x7b",
  "            throw new Error(await readResponseDetail(response));",
  "          \x7d",
  "          applyState(await response.json());",
  "        \x7d catch (error) \x7b",
  "          setStatus(\"Load failed: \" + error.message, \"err\");",
  "        \x7d finally \x7b",
  "          loadBtn.disabled = false;",
  "        \x7d",
  "      \x7d",
  "",
  "      async function selectPanel(verb) \x7b",
  "        const response = await fetch(apiUrl(\"/panels/\" + verb + \"/select\"), \x7b method: \"POST\" \x7d);",
  "        if (!response.ok) \x7b",
  "          alert(await readResponseDetail(response));",
  "          return;",
  "        \x7d",
  "        applyState(await response.json());",
  "      \x7d",
  "",
  "      async function submitPanel() \x7b",
  "        if (!visiblePanel) \x7b",
  "          return;",
  "        \x7d",
  "        submitBtn.disabled = true;",
  "        try \x7b",
  "          await pushValue(\"change\");",
  "          const response = await fetch(apiUrl(\"/panels/\" + visiblePanel.verb + \"/submit\"), \x7b method: \"POST\" \x7d);",
  "          if (!response.ok) \x7b",
  "            alert(await readResponseDetail(response));",
  "            return;",
  "          \x7d",
  "          const payload = await response.json();",
  "          showPre(responseBodyEl, payload.panel.response);",
  "        \x7d finally \x7b",
  "          submitBtn.disabled = false;",
  "        \x7d",
  "      \x7d",
  "",
  "      document.addEventListener(\"click\", function () \x7b",
  "        if (!consoleState) \x7b",
  "          return;",
  "        \x7d",
  "        fetch(apiUrl(\"/interactions\"), \x7b",
  "          method: \"POST\",",
  "          headers: \x7b \"Content-Type\": \"application/json\" \x7d,",
  "          body: JSON.stringify(\x7b trigger: \"click\" \x7d)",
  "        \x7d);",
  "      \x7d);",
  "",
  "      document.addEventListener(\"copy\", function (event) \x7b",
  "        if (!visiblePanel || !event.clipboardData) \x7b",
  "          return;",
  "        \x7d",
  "        event.preventDefault();",
  "        event.clipboardData.setData(\"application/json\", JSON.stringify(readValue(formEl)));",
  "      \x7d);",
  "",
  "      loadBtn.addEventListener(\"click\", loadConsole);",
  "      submitBtn.addEventListener(\"click\", submitPanel);",
  "      loadConsole();",
  "    \x7d)();",
  "  </script>",
  "</body>",
  "</html>",
  ""]

/-- The page. -/
def page : String := "\n".intercalate pageLines

end VerbForms.Host
