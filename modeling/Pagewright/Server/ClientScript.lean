import Pagewright.Number.Decimal

/-! The script that browsers run to be told of reloads. -/
namespace Pagewright.Server

def clientScriptPath : String := "/livereload.js"

/-- Connects to a port of the page's host, if that is a local one, reloads the page when told to and
connects again a second after the connection is lost. -/
def clientScript (port : Nat) : String :=
  "(function () \x7b\n"
    ++ "    var port = " ++ Decimal.intText port ++ ";\n"
    ++ "\n"
    ++ "    function connect() \x7b\n"
    ++ "        var host = window.location.hostname;\n"
    ++ "        if (host !== 'localhost' && host !== '127.0.0.1') \x7b\n"
    ++ "            console.log('livereload: not a local host, not connecting');\n"
    ++ "            return;\n"
    ++ "        \x7d\n"
    ++ "        var ws = new WebSocket('ws://' + host + ':' + port + '/');\n"
    ++ "        ws.onopen = function () \x7b\n"
    ++ "            console.log('livereload: connected');\n"
    ++ "        \x7d;\n"
    ++ "        ws.onmessage = function (evt) \x7b\n"
    ++ "            if (evt.data === 'reload') \x7b\n"
    ++ "                window.location.reload();\n"
    ++ "            \x7d\n"
    ++ "        \x7d;\n"
    ++ "        ws.onclose = function () \x7b\n"
    ++ "            console.log('livereload: connection closed, reconnecting in 1s');\n"
    ++ "            setTimeout(connect, 1000);\n"
    ++ "        \x7d;\n"
    ++ "        ws.onerror = function (err) \x7b\n"
    ++ "            console.error('livereload: error', err);\n"
    ++ "            ws.close();\n"
    ++ "        \x7d;\n"
    ++ "    \x7d\n"
    ++ "\n"
    ++ "    connect();\n"
    ++ "\x7d)();\n"

end Pagewright.Server
